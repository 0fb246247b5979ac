import NativeObjects.Model.Configuration

/-!
# The template cache

What a request for an interface template does to the templates of a process,
for any family of types, any isolates, and any state of the cache
(`interfaceTemplate_spec`). `Inv busy` is the invariant that holds while the
types in `busy` are being installed, on the templates given there; the
recursion through the parents adds to `busy`, and every call leaves it as it
was.
-/

namespace NativeObjects.Templates

variable {ι : Type} (T : TypeFamily ι)

open Lib.Forest (Above Ends)

/-- `e` is what `iterfaceTemplates_` has for the type `t`. -/
abbrev Holds (s : Templates ι) (t : ι) (e : Eternal) : Prop := s.iterfaceTemplates (T.name t) = some e

/-- The handle that `t`'s template inherits through: the template in the cache
for its parent type, which a request on `isolate` returned. -/
def ParentHandle (s : Templates ι) (isolate : IsolateId) (t : ι) (p : Option TemplateId) : Prop :=
  match T.parent t with
  | none => p = none
  | some u => ∃ e, Holds T s u e ∧ p = some e.template ∧ .returned isolate u e.template ∈ s.log

/-- A template after `InitializeInterfaceTemplate` with the parent handle `p`. -/
def initialized (isolate : IsolateId) (t : ι) (p : Option TemplateId) : FunctionTemplate ι TemplateId :=
  let f := Config.setClassString (T.name t)
    { isolate := isolate, className := newFromOneByte (T.name t), prototypeReadOnly := true,
      instanceFieldCount := (T.info t).internalFieldCount }
  match p with
  | none => f
  | some p => { f with parent := some p, prototypeFieldCount := 1 }

/-- The template `ft` after the install function of `t`. -/
def built (isolate : IsolateId) (t : ι) (ft : TemplateId) (p : Option TemplateId) :
    FunctionTemplate ι TemplateId :=
  ((T.install t).map (TemplateCall.map fun _ => ft)).foldl FunctionTemplate.call (initialized T isolate t p)

/-- No template is modified after a request returned it (the log has the last
event first). -/
def Settled : List (TemplateEvent ι) → Prop
  | [] => True
  | e :: log => (∀ ft, e = .modified ft → ∀ isolate t, .returned isolate t ft ∉ log) ∧ Settled log

/-- The event that the install function of `t` starts. -/
def isInstalled [DecidableEq ι] (t : ι) : TemplateEvent ι → Bool
  | .installed u _ => u = t
  | _ => false

/-- The invariant, while the types in `busy` are being installed. -/
structure Inv [DecidableEq ι] (busy : List (ι × TemplateId)) (s : Templates ι) : Prop where
  named : ∀ name e, s.iterfaceTemplates name = some e → ∃ t, T.name t = name
  lt : ∀ t e, Holds T s t e → e.template < s.next
  inj : ∀ t u e e', Holds T s t e → Holds T s u e' → e.template = e'.template → t = u
  built : ∀ t e, Holds T s t e → ∃ p, ParentHandle T s e.isolate t p ∧
    s.templates e.template = some (built T e.isolate t e.template p)
  busy_fresh : ∀ x ∈ busy, s.iterfaceTemplates (T.name x.1) = none ∧ x.2 < s.next ∧
    ∀ u e, Holds T s u e → e.template ≠ x.2
  installed : ∀ t ft, .installed t ft ∈ s.log → (∃ e, Holds T s t e) ∨ t ∈ busy.map Prod.fst
  installed_once : ∀ t, s.log.countP (isInstalled t) ≤ 1
  started : ∀ t ft, (∃ e, Holds T s t e ∧ e.template = ft) ∨ (t, ft) ∈ busy → .installed t ft ∈ s.log
  ends : ∀ t e, Holds T s t e → ∃ n, Ends T.parent n t
  returned : ∀ isolate t ft, .returned isolate t ft ∈ s.log → ∃ e, Holds T s t e ∧ e.template = ft
  settled : Settled s.log

/-- A request for `t` on `isolate` asks for `u`, on the isolate `i`. -/
def Under (isolate : IsolateId) (t : ι) (i : IsolateId) (u : ι) : Prop := i = isolate ∧ Above T.parent t u

/-- `s'` comes after `s`: it has the first `n` templates of `s`, what `s` has in
the cache, and its history. The isolates and types of what is new in the cache
meet `P`, and so do those of the requests that have returned since. -/
structure Progress (P : IsolateId → ι → Prop) (n : TemplateId) (s s' : Templates ι) : Prop where
  next : s.next ≤ s'.next
  templates : ∀ ft < n, s'.templates ft = s.templates ft
  cache : ∀ name e, s.iterfaceTemplates name = some e → s'.iterfaceTemplates name = some e
  log : ∀ ev ∈ s.log, ev ∈ s'.log
  fresh : ∀ u e, Holds T s' u e → Holds T s u e ∨ P e.isolate u
  asked : ∀ i u ft, .returned i u ft ∈ s'.log → .returned i u ft ∈ s.log ∨ P i u

variable {T}

variable (T) in
theorem Progress.refl (P : IsolateId → ι → Prop) (n : TemplateId) (s : Templates ι) : Progress T P n s s :=
  ⟨Nat.le_refl _, fun _ _ => rfl, fun _ _ h => h, fun _ h => h, fun _ _ => .inl, fun _ _ _ => .inl⟩

theorem Progress.trans {P : IsolateId → ι → Prop} {n : TemplateId} {s₁ s₂ s₃ : Templates ι}
    (h₁ : Progress T P n s₁ s₂) (h₂ : Progress T P n s₂ s₃) : Progress T P n s₁ s₃ where
  next := h₁.next.trans h₂.next
  templates ft hf := (h₂.templates ft hf).trans (h₁.templates ft hf)
  cache name e h := h₂.cache name e (h₁.cache name e h)
  log ev h := h₂.log ev (h₁.log ev h)
  fresh u e h := (h₂.fresh u e h).elim (h₁.fresh u e) .inr
  asked i u ft h := (h₂.asked i u ft h).elim (h₁.asked i u ft) .inr

theorem Progress.mono {P Q : IsolateId → ι → Prop} {n m : TemplateId} {s s' : Templates ι}
    (h : Progress T P n s s') (hP : ∀ i u, P i u → Q i u) (hm : m ≤ n) : Progress T Q m s s' where
  next := h.next
  templates ft hf := h.templates ft (hf.trans_le hm)
  cache := h.cache
  log := h.log
  fresh u e he := (h.fresh u e he).imp id (hP _ u)
  asked i u ft he := (h.asked i u ft he).imp id (hP i u)

theorem ParentHandle.mono {s s' : Templates ι} {isolate : IsolateId} {t : ι} {p : Option TemplateId}
    (h : ParentHandle T s isolate t p)
    (hc : ∀ name e, s.iterfaceTemplates name = some e → s'.iterfaceTemplates name = some e)
    (hl : ∀ ev ∈ s.log, ev ∈ s'.log) : ParentHandle T s' isolate t p := by
  unfold ParentHandle at *
  cases ht : T.parent t with
  | none =>
    simp only [ht] at h
    exact h
  | some u =>
    simp only [ht] at h
    obtain ⟨e, he, hp, hr⟩ := h
    exact ⟨e, hc _ _ he, hp, hl _ hr⟩

theorem cached_of_holds {s : Templates ι} {t : ι} {e : Eternal} (h : Holds T s t e) :
    s.cached (T.name t) = some e.template := by
  rw [Templates.cached, h, Option.map_some]

/-- The parent handle of a cached type is what is cached for its parent type. -/
theorem parentHandle_eq {s : Templates ι} {isolate : IsolateId} {t : ι} {p : Option TemplateId}
    (h : ParentHandle T s isolate t p) : p = (T.parent t).bind fun u => s.cached (T.name u) := by
  unfold ParentHandle at h
  cases hu : T.parent t with
  | none =>
    rw [hu] at h
    exact h
  | some u =>
    rw [hu] at h
    obtain ⟨e, he, rfl, -⟩ := h
    exact (cached_of_holds he).symm

theorem foldl_call_parent {τ : Type} (calls : List (TemplateCall ι τ)) (f : FunctionTemplate ι τ) :
    (calls.foldl FunctionTemplate.call f).parent = f.parent ∧
      (calls.foldl FunctionTemplate.call f).isolate = f.isolate := by
  induction calls generalizing f with
  | nil => exact ⟨rfl, rfl⟩
  | cons c calls ih =>
    obtain ⟨hp, hi⟩ := ih (f.call c)
    rw [List.foldl_cons, hp, hi]
    cases c <;> exact ⟨rfl, rfl⟩

theorem built_parent (isolate : IsolateId) (t : ι) (ft : TemplateId) (p : Option TemplateId) :
    (built T isolate t ft p).parent = p ∧ (built T isolate t ft p).isolate = isolate := by
  obtain ⟨hp, hi⟩ := foldl_call_parent ((T.install t).map (TemplateCall.map fun _ => ft)) (initialized T isolate t p)
  refine ⟨hp.trans ?_, hi.trans ?_⟩ <;> cases p <;> rfl

/-! ## The operations keep the invariant -/

@[simp] theorem record_iterfaceTemplates (ev : TemplateEvent ι) (s : Templates ι) :
    (s.record ev).iterfaceTemplates = s.iterfaceTemplates := rfl

@[simp] theorem modify_iterfaceTemplates (ft : TemplateId) (f) (s : Templates ι) :
    (s.modify ft f).iterfaceTemplates = s.iterfaceTemplates := rfl

theorem modify_templates_self (ft : TemplateId) (f) (s : Templates ι) :
    (s.modify ft f).templates ft = (s.templates ft).map f := Function.update_self ..

theorem modify_templates_of_ne {ft ft' : TemplateId} (h : ft' ≠ ft) (f) (s : Templates ι) :
    (s.modify ft f).templates ft' = s.templates ft' := Function.update_of_ne h ..

@[simp] theorem new_iterfaceTemplates (isolate : IsolateId) (s : Templates ι) :
    (s.new isolate).2.iterfaceTemplates = s.iterfaceTemplates := rfl

theorem new_templates_self (isolate : IsolateId) (s : Templates ι) :
    (s.new isolate).2.templates s.next = some { isolate := isolate } := Function.update_self ..

theorem new_templates_of_lt (isolate : IsolateId) (s : Templates ι) {ft : TemplateId} (h : ft < s.next) :
    (s.new isolate).2.templates ft = s.templates ft := Function.update_of_ne (Nat.ne_of_lt h) ..

theorem insert_of_none {s : Templates ι} {name : String} (h : s.iterfaceTemplates name = none) (e : Eternal) :
    s.insert name e = { s with iterfaceTemplates := Function.update s.iterfaceTemplates name (some e) } := by
  unfold Templates.insert
  rw [h]

theorem not_holds_empty {t : ι} {e : Eternal} : ¬ Holds T (.empty : Templates ι) t e := nofun

/-- An insertion adds the one entry to the cache. -/
theorem holds_insert {s : Templates ι} {t : ι} (hn : s.iterfaceTemplates (T.name t) = none) (e : Eternal) (u : ι)
    (e' : Eternal) : Holds T (s.insert (T.name t) e) u e' ↔ Holds T s u e' ∨ u = t ∧ e' = e := by
  rw [insert_of_none hn]
  by_cases hu : u = t
  · subst hu
    simp only [Holds, Function.update_self, hn, reduceCtorEq, false_or, true_and, Option.some.injEq]
    exact eq_comm
  · have hname : T.name u ≠ T.name t := fun hname => hu (T.name_injective hname)
    simp only [Holds, Function.update_of_ne hname, hu, false_and, or_false]

theorem progress_insert {s : Templates ι} {t : ι} (hn : s.iterfaceTemplates (T.name t) = none) (e : Eternal) :
    Progress T (fun i u => u = t ∧ i = e.isolate) s.next s (s.insert (T.name t) e) := by
  have hs := insert_of_none hn e
  constructor
  case next => exact hs ▸ Nat.le_refl s.next
  case templates => exact fun _ _ => hs ▸ rfl
  case cache =>
    intro name e' he
    have hname : name ≠ T.name t := by
      rintro rfl
      exact absurd (hn.symm.trans he) (by simp)
    rw [hs]
    exact (Function.update_of_ne hname ..).trans he
  case log => exact fun _ h => hs ▸ h
  case fresh => exact fun u e' he => ((holds_insert hn e u e').mp he).imp id fun ⟨hu, heq⟩ => ⟨hu, heq ▸ rfl⟩
  case asked => exact fun _ _ _ h => .inl (by rwa [hs] at h)

variable (T) in
theorem progress_new (P : IsolateId → ι → Prop) (isolate : IsolateId) (t : ι) (s : Templates ι) :
    Progress T P s.next s ((s.new isolate).2.record (.installed t s.next)) where
  next := Nat.le_succ _
  templates _ hf := new_templates_of_lt isolate s hf
  cache _ _ h := h
  log _ := List.mem_cons_of_mem _
  fresh _ _ := .inl
  asked _ _ _ hm := .inl ((List.mem_cons.mp hm).resolve_left (by simp))

theorem progress_returned (isolate : IsolateId) (t : ι) (ft n : TemplateId) (s : Templates ι) :
    Progress T (Under T isolate t) n s (s.record (.returned isolate t ft)) where
  next := Nat.le_refl _
  templates _ _ := rfl
  cache _ _ h := h
  log _ := List.mem_cons_of_mem _
  fresh _ _ := .inl
  asked i u ft hm := by
    rcases List.mem_cons.mp hm with heq | hm
    · cases heq
      exact .inr ⟨rfl, Lib.Forest.above_self t⟩
    · exact .inl hm

section

variable [DecidableEq ι] {busy : List (ι × TemplateId)} {s : Templates ι}

theorem Inv.empty : Inv T [] (.empty : Templates ι) where
  named _ _ h := nomatch h
  lt _ _ h := absurd h not_holds_empty
  inj _ _ _ _ h := absurd h not_holds_empty
  built _ _ h := absurd h not_holds_empty
  busy_fresh _ h := nomatch h
  installed _ _ h := nomatch h
  installed_once _ := Nat.zero_le _
  started _ _ h := by simp [Holds, Templates.empty] at h
  ends _ _ h := absurd h not_holds_empty
  returned _ _ _ h := nomatch h
  settled := trivial

/-- A cached template stays as it was built. -/
theorem Inv.built_mono (h : Inv T busy s) {P : IsolateId → ι → Prop} {s' : Templates ι}
    (hp : Progress T P s.next s s') {t : ι} {e : Eternal} (he : Holds T s t e) :
    ∃ p, ParentHandle T s' e.isolate t p ∧
      s'.templates e.template = some (Templates.built T e.isolate t e.template p) := by
  obtain ⟨p, hpar, hb⟩ := h.built t e he
  exact ⟨p, hpar.mono hp.cache hp.log, (hp.templates _ (h.lt t e he)).trans hb⟩

/-- Modifying a template that is being installed. -/
theorem Inv.modify (h : Inv T busy s) {x : ι × TemplateId} (hx : x ∈ busy)
    (f : FunctionTemplate ι TemplateId → FunctionTemplate ι TemplateId) : Inv T busy (s.modify x.2 f) where
  named := h.named
  lt := h.lt
  inj := h.inj
  built t e he := by
    obtain ⟨p, hp, hb⟩ := h.built t e he
    exact ⟨p, hp.mono (fun _ _ h => h) fun _ => List.mem_cons_of_mem _,
      by rw [modify_templates_of_ne ((h.busy_fresh x hx).2.2 t e he), hb]⟩
  busy_fresh := h.busy_fresh
  installed t ft hm := h.installed t ft (by simpa [Templates.modify] using hm)
  installed_once t := by
    rw [show (s.modify x.2 f).log = .modified x.2 :: s.log from rfl,
      List.countP_cons_of_neg (by simp [isInstalled])]
    exact h.installed_once t
  started t ft ht := List.mem_cons_of_mem _ (h.started t ft ht)
  ends := h.ends
  returned isolate t ft hm := h.returned isolate t ft (by simpa [Templates.modify] using hm)
  settled := by
    refine ⟨fun ft hft isolate t hm => ?_, h.settled⟩
    cases hft
    obtain ⟨e, he, heq⟩ := h.returned isolate t x.2 hm
    exact (h.busy_fresh x hx).2.2 t e he heq

/-- Starting to install a type. -/
theorem Inv.new (h : Inv T busy s) {t : ι} (isolate : IsolateId) (hn : s.iterfaceTemplates (T.name t) = none)
    (hb : t ∉ busy.map Prod.fst) :
    Inv T ((t, s.next) :: busy) ((s.new isolate).2.record (.installed t s.next)) where
  named := h.named
  lt u e he := Nat.lt_succ_of_lt (h.lt u e he)
  inj := h.inj
  built u e he := h.built_mono (progress_new T (fun _ _ => False) isolate t s) he
  busy_fresh x hx := by
    rcases List.mem_cons.mp hx with rfl | hx
    · exact ⟨hn, Nat.lt_succ_self _, fun u e he => Nat.ne_of_lt (h.lt u e he)⟩
    · obtain ⟨h₁, h₂, h₃⟩ := h.busy_fresh x hx
      exact ⟨h₁, Nat.lt_succ_of_lt h₂, h₃⟩
  installed u ft hm := by
    rcases List.mem_cons.mp hm with heq | hm
    · cases heq
      exact .inr List.mem_cons_self
    · exact (h.installed u ft hm).imp id (List.mem_cons_of_mem _)
  installed_once u := by
    rw [show ((s.new isolate).2.record (.installed t s.next)).log = .installed t s.next :: s.log from rfl]
    by_cases hu : t = u
    · subst hu
      rw [List.countP_cons_of_pos (by simp [isInstalled]), List.countP_eq_zero.mpr fun ev hev hi => ?_]
      cases ev with
      | installed v ft =>
        simp only [isInstalled, decide_eq_true_eq] at hi
        subst hi
        rcases h.installed v ft hev with ⟨e, he⟩ | hv
        · rw [Holds, hn] at he
          exact absurd he (by simp)
        · exact hb hv
      | modified ft => exact absurd hi (by simp [isInstalled])
      | returned i v ft => exact absurd hi (by simp [isInstalled])
    · rw [List.countP_cons_of_neg (by simpa [isInstalled] using hu)]
      exact h.installed_once u
  started u ft hu := by
    rcases hu with hu | hu
    · exact List.mem_cons_of_mem _ (h.started u ft (.inl hu))
    · rcases List.mem_cons.mp hu with heq | hu
      · cases heq
        exact List.mem_cons_self
      · exact List.mem_cons_of_mem _ (h.started u ft (.inr hu))
  ends := h.ends
  returned i u ft hm := by
    rcases List.mem_cons.mp hm with heq | hm
    · cases heq
    · exact h.returned i u ft hm
  settled := ⟨fun _ hft => (nomatch hft), h.settled⟩

/-- Returning the cached template of a type. -/
theorem Inv.record_returned (h : Inv T busy s) {t : ι} {e : Eternal} (he : Holds T s t e) (isolate : IsolateId) :
    Inv T busy (s.record (.returned isolate t e.template)) where
  named := h.named
  lt := h.lt
  inj := h.inj
  built u e' he := h.built_mono (progress_returned isolate t e.template s.next s) he
  busy_fresh := h.busy_fresh
  installed u ft hm := h.installed u ft (by simpa [Templates.record] using hm)
  installed_once u := by
    rw [show (s.record (.returned isolate t e.template)).log = .returned isolate t e.template :: s.log from rfl,
      List.countP_cons_of_neg (by simp [isInstalled])]
    exact h.installed_once u
  started u ft hu := List.mem_cons_of_mem _ (h.started u ft hu)
  ends := h.ends
  returned i u ft hm := by
    rcases List.mem_cons.mp hm with heq | hm
    · cases heq
      exact ⟨e, he, rfl⟩
    · exact h.returned i u ft hm
  settled := ⟨fun _ hft => (nomatch hft), h.settled⟩

/-- Inserting a type that has been installed. -/
theorem Inv.insert {t : ι} {ft : TemplateId} (h : Inv T ((t, ft) :: busy) s) (hb : t ∉ busy.map Prod.fst)
    (hd : ∀ x ∈ busy, x.2 ≠ ft) {isolate : IsolateId} {p : Option TemplateId} (hp : ParentHandle T s isolate t p)
    (hft : s.templates ft = some (Templates.built T isolate t ft p)) {n : Nat} (he : Ends T.parent n t) :
    Inv T busy (s.insert (T.name t) ⟨isolate, ft⟩) := by
  obtain ⟨hn, hlt, hne⟩ := h.busy_fresh (t, ft) List.mem_cons_self
  have hholds := holds_insert hn ⟨isolate, ft⟩
  have hg := progress_insert hn ⟨isolate, ft⟩
  have hself : Holds T (s.insert (T.name t) ⟨isolate, ft⟩) t ⟨isolate, ft⟩ := (hholds t _).mpr (.inr ⟨rfl, rfl⟩)
  have hs := insert_of_none hn ⟨isolate, ft⟩
  constructor
  case named =>
    intro name e he
    by_cases hname : name = T.name t
    · exact ⟨t, hname.symm⟩
    · rw [hs] at he
      exact h.named name e ((Function.update_of_ne hname ..).symm.trans he)
  case lt =>
    intro u e he
    rw [hs]
    rcases (hholds u e).mp he with he | ⟨-, rfl⟩
    · exact h.lt u e he
    · exact hlt
  case inj =>
    intro u v e e' he he' heq
    rcases (hholds u e).mp he with he | ⟨rfl, rfl⟩ <;> rcases (hholds v e').mp he' with he' | ⟨rfl, rfl⟩
    · exact h.inj u v e e' he he' heq
    · exact absurd heq (hne u e ‹_›)
    · exact absurd heq.symm (hne v e' ‹_›)
    · rfl
  case built =>
    intro u e he
    rcases (hholds u e).mp he with he | ⟨rfl, rfl⟩
    · exact h.built_mono hg he
    · exact ⟨p, hp.mono hg.cache hg.log, (hg.templates ft hlt).trans hft⟩
  case busy_fresh =>
    intro x hx
    obtain ⟨h₁, h₂, h₃⟩ := h.busy_fresh x (List.mem_cons_of_mem _ hx)
    have hxt : T.name x.1 ≠ T.name t := fun hname => hb (T.name_injective hname ▸ List.mem_map_of_mem hx)
    refine ⟨?_, h₂.trans_le hg.next, fun u e he => ?_⟩
    · rw [hs]
      exact (Function.update_of_ne hxt ..).trans h₁
    · rcases (hholds u e).mp he with he | ⟨-, rfl⟩
      · exact h₃ u e he
      · exact (hd x hx).symm
  case installed =>
    intro u ft' hm
    rw [hs] at hm
    rcases h.installed u ft' hm with ⟨e, he⟩ | hu
    · exact .inl ⟨e, (hholds u e).mpr (.inl he)⟩
    · rcases List.mem_cons.mp hu with rfl | hu
      · exact .inl ⟨_, hself⟩
      · exact .inr hu
  case installed_once => exact hs ▸ h.installed_once
  case started =>
    rintro u ft' (⟨e, he, heq⟩ | hu)
    · rcases (hholds u e).mp he with he | ⟨rfl, rfl⟩
      · exact hg.log _ (h.started u ft' (.inl ⟨e, he, heq⟩))
      · exact hg.log _ (h.started u ft' (.inr (heq ▸ List.mem_cons_self)))
    · exact hg.log _ (h.started u ft' (.inr (List.mem_cons_of_mem _ hu)))
  case ends =>
    intro u e hu
    rcases (hholds u e).mp hu with hu | ⟨rfl, -⟩
    · exact h.ends u e hu
    · exact ⟨n, he⟩
  case returned =>
    intro i u ft' hm
    rw [hs] at hm
    obtain ⟨e, he, heq⟩ := h.returned i u ft' hm
    exact ⟨e, (hholds u e).mpr (.inl he), heq⟩
  case settled => exact hs ▸ h.settled

/-! ## Calls that modify one template -/

/-- `s'` is `s` after calls that only modify `ft`, which together do `f` to it. -/
structure Modified (ft : TemplateId) (f : FunctionTemplate ι TemplateId → FunctionTemplate ι TemplateId)
    (s s' : Templates ι) : Prop where
  next : s'.next = s.next
  cache : s'.iterfaceTemplates = s.iterfaceTemplates
  self : s'.templates ft = (s.templates ft).map f
  others : ∀ ft', ft' ≠ ft → s'.templates ft' = s.templates ft'
  log : ∀ ev ∈ s.log, ev ∈ s'.log
  events : ∀ ev ∈ s'.log, ev ∈ s.log ∨ ev = .modified ft
  inv : ∀ (T : TypeFamily ι) busy t, (t, ft) ∈ busy → Inv T busy s → Inv T busy s'

theorem Modified.refl (ft : TemplateId) (s : Templates ι) : Modified ft id s s :=
  ⟨rfl, rfl, by simp, fun _ _ => rfl, fun _ h => h, fun _ => .inl, fun _ _ _ _ h => h⟩

theorem modified_modify (ft : TemplateId) (f) (s : Templates ι) : Modified ft f s (s.modify ft f) where
  next := rfl
  cache := rfl
  self := modify_templates_self ft f s
  others _ h := modify_templates_of_ne h f s
  log _ := List.mem_cons_of_mem _
  events _ h := (List.mem_cons.mp h).symm
  inv _ _ _ hx h := h.modify hx f

theorem Modified.trans {ft : TemplateId} {f g : FunctionTemplate ι TemplateId → FunctionTemplate ι TemplateId}
    {s₁ s₂ s₃ : Templates ι} (h₁ : Modified ft f s₁ s₂) (h₂ : Modified ft g s₂ s₃) :
    Modified ft (g ∘ f) s₁ s₃ where
  next := h₂.next.trans h₁.next
  cache := h₂.cache.trans h₁.cache
  self := by rw [h₂.self, h₁.self, Option.map_map]
  others ft' h := (h₂.others ft' h).trans (h₁.others ft' h)
  log ev h := h₂.log ev (h₁.log ev h)
  events ev h := (h₂.events ev h).elim (h₁.events ev) .inr
  inv T busy t hx h := h₂.inv T busy t hx (h₁.inv T busy t hx h)

theorem modified_foldl {α : Type} (ft : TemplateId)
    (f : FunctionTemplate ι TemplateId → α → FunctionTemplate ι TemplateId) (l : List α) (s : Templates ι) :
    Modified ft (fun x => l.foldl f x) s (l.foldl (fun s c => s.modify ft (f · c)) s) := by
  induction l generalizing s with
  | nil => exact .refl ft s
  | cons c l ih => exact (modified_modify ft (f · c) s).trans (ih _)

variable (T) in
theorem Modified.progress {ft : TemplateId} {f} {s s' : Templates ι} (h : Modified ft f s s')
    (P : IsolateId → ι → Prop) {n : TemplateId} (hn : n ≤ ft) : Progress T P n s s' where
  next := h.next.ge
  templates ft' hf := h.others ft' (Nat.ne_of_lt (hf.trans_le hn))
  cache name e he := by rw [h.cache, he]
  log := h.log
  fresh u e he := .inl (by rwa [Holds, ← h.cache])
  asked i u ft' he := (h.events _ he).elim .inl (nomatch ·)

/-! ## A request -/

variable (T) in
/-- What a request for `t` that returned `ft` has done. -/
structure Requested (isolate : IsolateId) (t : ι) (ft : TemplateId) (s s' : Templates ι) : Prop where
  progress : Progress T (Under T isolate t) s.next s s'
  holds : ∃ e, Holds T s' t e ∧ e.template = ft
  returned : .returned isolate t ft ∈ s'.log

/-- `InitializeInterfaceTemplate`, where the requests it makes keep the
invariant: it gives the template all that it sets. -/
theorem initializeInterfaceTemplate_spec {isolate : IsolateId} {t : ι} {ft : TemplateId} {s : Templates ι}
    {request : IsolateId → ι → Templates ι → Option (TemplateId × Templates ι)}
    (h : Inv T ((t, ft) :: busy) s) (hft : s.templates ft = some { isolate := isolate })
    (hr : ∀ u, T.parent t = some u → ∀ s, Inv T ((t, ft) :: busy) s → ∃ p s',
      request isolate u s = some (p, s') ∧ Inv T ((t, ft) :: busy) s' ∧ Requested T isolate u p s s') :
    ∃ s' p, Config.initializeInterfaceTemplate request isolate ft (T.info t) s = some s' ∧
      Inv T ((t, ft) :: busy) s' ∧ Progress T (Under T isolate t) ft s s' ∧
      ParentHandle T s' isolate t p ∧ s'.templates ft = some (initialized T isolate t p) := by
  have hm := (((modified_modify ft (fun f => { f with className := newFromOneByte (T.info t).interfaceName }) s).trans
    (modified_modify ft (fun f => { f with prototypeReadOnly := true }) _)).trans
    (modified_modify ft (fun f => { f with instanceFieldCount := (T.info t).internalFieldCount }) _)).trans
    (modified_modify ft (Config.setClassString (T.info t).interfaceName) _)
  unfold Config.initializeInterfaceTemplate
  set s₁ := (((s.modify ft fun f => { f with className := newFromOneByte (T.info t).interfaceName }).modify ft
    fun f => { f with prototypeReadOnly := true }).modify ft
    fun f => { f with instanceFieldCount := (T.info t).internalFieldCount }).modify ft
    (Config.setClassString (T.info t).interfaceName) with hs₁
  have h₁ := hm.inv T _ t List.mem_cons_self h
  have hp₁ := hm.progress T (Under T isolate t) (le_refl ft)
  have hft₁ := hm.self.trans (congrArg _ hft)
  cases ht : (T.info t).parentClass with
  | none =>
    refine ⟨s₁, none, rfl, h₁, hp₁, ?_, hft₁⟩
    unfold ParentHandle TypeTable.parent
    rw [ht]
  | some u =>
    obtain ⟨p, s₂, heq, h₂, hq⟩ := hr u ht s₁ h₁
    have hm' := (modified_modify ft (fun f => { f with parent := some p }) s₂).trans
      (modified_modify ft (fun f => { f with prototypeFieldCount := 1 }) _)
    obtain ⟨e, he, hep⟩ := hq.holds
    have hlt : ft < s₁.next := (h₁.busy_fresh (t, ft) List.mem_cons_self).2.1
    have hp₂ : Progress T (Under T isolate t) ft s₁ s₂ :=
      hq.progress.mono (fun _ v hv => ⟨hv.1, Lib.Forest.above_head ht hv.2⟩) hlt.le
    refine ⟨_, some p, ?_, hm'.inv T _ t List.mem_cons_self h₂,
      (hp₁.trans hp₂).trans (hm'.progress T _ (le_refl ft)), ?_, ?_⟩
    · show (request isolate u s₁).bind _ = _
      rw [heq]
      rfl
    · unfold ParentHandle TypeTable.parent
      rw [ht]
      refine ⟨e, ?_, by rw [hep], hm'.log _ (hep ▸ hq.returned)⟩
      rwa [Holds, hm'.cache]
    · rw [hm'.self, hq.progress.templates ft hlt, hft₁]
      rfl

/-- A request for `t`, where no type from `t` upwards is being installed and the
chain of parents ends within the fuel, returns, and keeps the invariant. -/
theorem interfaceTemplate_spec {fuel : Nat} (isolate : IsolateId) {t : ι} {s : Templates ι}
    (h : Inv T busy s) (hb : ∀ x ∈ busy, ¬ Above T.parent t x.1) (he : Ends T.parent fuel t) :
    ∃ ft s', T.interfaceTemplate fuel isolate t s = some (ft, s') ∧ Inv T busy s' ∧
      Requested T isolate t ft s s' := by
  induction fuel generalizing isolate t s busy with
  | zero => exact absurd he (Lib.Forest.not_ends_zero t)
  | succ fuel ih =>
    simp only [TypeTable.interfaceTemplate]
    cases hc : s.iterfaceTemplates (T.info t).interfaceName with
    | some e =>
      exact ⟨e.template, _, rfl, h.record_returned hc isolate, progress_returned isolate t _ _ s, ⟨e, hc, rfl⟩,
        List.mem_cons_self⟩
    | none =>
      have ht : t ∉ busy.map Prod.fst := by
        intro ht
        obtain ⟨x, hx, rfl⟩ := List.mem_map.mp ht
        exact hb x hx (Lib.Forest.above_self x.1)
      have h₁ := h.new isolate hc ht
      have hft₁ : ((s.new isolate).2.record (.installed t s.next)).templates s.next =
          some { isolate := isolate } := new_templates_self isolate s
      have hp₁ := progress_new T (Under T isolate t) isolate t s
      have hreq : ∀ u, T.parent t = some u → ∀ r, Inv T ((t, s.next) :: busy) r → ∃ p r',
          T.interfaceTemplate fuel isolate u r = some (p, r') ∧ Inv T ((t, s.next) :: busy) r' ∧
            Requested T isolate u p r r' := by
        refine fun u hu r hi => ih isolate hi (fun x hx hux => ?_) (Lib.Forest.ends_succ_iff.mp he u hu)
        -- neither `t` itself nor a type that waits for `t` is above the parent of `t`
        rcases List.mem_cons.mp hx with rfl | hx
        · exact he.not_above_parent hu hux
        · exact hb x hx (Lib.Forest.above_head hu hux)
      obtain ⟨s₂, p, heq₂, h₂, hp₂, hpar, hft₂⟩ := initializeInterfaceTemplate_spec h₁ hft₁ hreq
      have hm := modified_foldl s.next FunctionTemplate.call
        ((T.install t).map (TemplateCall.map fun _ => s.next)) s₂
      have h₃ := hm.inv T _ t List.mem_cons_self h₂
      have hn₃ := (h₃.busy_fresh (t, s.next) List.mem_cons_self).1
      have h₄ := h₃.insert ht (fun x hx => Nat.ne_of_lt (h.busy_fresh x hx).2.1)
        (hpar.mono (fun _ _ he => by rwa [hm.cache]) hm.log) (hm.self.trans (congrArg _ hft₂)) he
      have hp₄ := progress_insert hn₃ ⟨isolate, s.next⟩
      have hh₄ := (holds_insert hn₃ ⟨isolate, s.next⟩ t _).mpr (.inr ⟨rfl, rfl⟩)
      refine ⟨s.next, _, ?_, h₄.record_returned hh₄ isolate, ?_⟩
      · simp only [TypeTable.installInterfaceTemplate, show (s.new isolate).1 = s.next from rfl, heq₂,
          Option.bind_eq_bind, Option.bind_some, Option.pure_def]
        rfl
      · have hlt := (hp₁.next.trans hp₂.next).trans hm.next.ge
        have ht : ∀ i u, u = t ∧ i = isolate → Under T isolate t i u := fun i u ⟨hu, hi⟩ =>
          ⟨hi, hu ▸ Lib.Forest.above_self u⟩
        have hp₅ := (((hp₁.trans hp₂).trans (hm.progress T _ (le_refl _))).trans (hp₄.mono ht hlt)).trans
          (progress_returned isolate t s.next s.next _)
        exact ⟨hp₅, ⟨_, hh₄, rfl⟩, List.mem_cons_self⟩

end

end NativeObjects.Templates
