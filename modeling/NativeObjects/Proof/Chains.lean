import NativeObjects.Proof.Templates

/-!
# What a request does to the cache

For any wrapper types, whose names need not be distinct and whose parents may form a
cycle: a request installs the types from the one requested up to the first that is
cached (`TypeTable.pending`), and inserts them into the cache from the last to the first
(`TypeTable.insertAll`), which keeps what is there. So it returns exactly if there is an
end to them, and it caches what it returns exactly if no other of them has the name
(`request_iff`).
-/

namespace NativeObjects

open Lib.Forest (climb)

variable {ι : Type}

namespace TypeTable

variable (T : TypeTable ι)

/-- The types that a request for `t` installs; `none` if `fuel` is not enough. -/
def pending (s : Templates ι) : Nat → ι → Option (List ι)
  | 0, _ => none
  | fuel + 1, t =>
    match s.iterfaceTemplates (T.name t) with
    | some _ => some []
    | none =>
      match T.parent t with
      | none => some [t]
      | some u => (pending s fuel u).map (t :: ·)

/-- The cache after the templates of the types were inserted, the first one last. They
are named from `n` on. -/
def insertAll (isolate : IsolateId) : List ι → TemplateId → (String → Option Eternal) → String → Option Eternal
  | [], _, cache => cache
  | t :: us, n, cache =>
    match insertAll isolate us (n + 1) cache (T.name t) with
    | some _ => insertAll isolate us (n + 1) cache
    | none => Function.update (insertAll isolate us (n + 1) cache) (T.name t) (some ⟨isolate, n⟩)

variable {T}

theorem pending_congr {s s' : Templates ι} (h : s'.iterfaceTemplates = s.iterfaceTemplates) (fuel : Nat) (t : ι) :
    T.pending s' fuel t = T.pending s fuel t := by
  induction fuel generalizing t with
  | zero => rfl
  | succ fuel ih =>
    unfold pending
    rw [h]
    cases s.iterfaceTemplates (T.name t) with
    | some e => rfl
    | none =>
      cases T.parent t with
      | none => rfl
      | some u =>
        show (T.pending s' fuel u).map _ = (T.pending s fuel u).map _
        rw [ih]

/-! ## The calls of a request -/

/-- What a request does, in terms of what it installs. -/
structure Installs (T : TypeTable ι) (isolate : IsolateId) (us : List ι) (s s' : Templates ι) : Prop where
  next : s'.next = s.next + us.length
  cache : s'.iterfaceTemplates = T.insertAll isolate us s.next s.iterfaceTemplates

theorem insert_cache (s : Templates ι) (name : String) (e : Eternal) :
    (s.insert name e).next = s.next ∧ (s.insert name e).iterfaceTemplates =
      match s.iterfaceTemplates name with
      | some _ => s.iterfaceTemplates
      | none => Function.update s.iterfaceTemplates name (some e) := by
  unfold Templates.insert
  cases s.iterfaceTemplates name <;> exact ⟨rfl, rfl⟩

theorem foldl_modify_cache (calls : List (TemplateCall ι TemplateId)) (ft : TemplateId) (s : Templates ι) :
    (calls.foldl (fun s c => s.modify ft (·.call c)) s).next = s.next ∧
      (calls.foldl (fun s c => s.modify ft (·.call c)) s).iterfaceTemplates = s.iterfaceTemplates := by
  induction calls generalizing s with
  | nil => exact ⟨rfl, rfl⟩
  | cons c calls ih => exact ih (s.modify ft (·.call c))

/-- The install function of a type without a parent. -/
theorem installInterfaceTemplate_of_root
    (request : IsolateId → ι → Templates ι → Option (TemplateId × Templates ι)) (isolate : IsolateId) {t : ι}
    (hu : T.parent t = none) (ft : TemplateId) (s : Templates ι) :
    ∃ s', T.installInterfaceTemplate request isolate t ft s = some s' ∧ s'.next = s.next ∧
      s'.iterfaceTemplates = s.iterfaceTemplates := by
  have hp : (T.info t).parentClass = none := hu
  simp only [installInterfaceTemplate, Config.initializeInterfaceTemplate, hp, Option.bind_eq_bind, Option.bind_some]
  exact ⟨_, rfl, foldl_modify_cache ..⟩

/-- The install function of a type requests the template of its parent. -/
theorem installInterfaceTemplate_of_parent
    (request : IsolateId → ι → Templates ι → Option (TemplateId × Templates ι)) (isolate : IsolateId) {t u : ι}
    (hu : T.parent t = some u) (ft : TemplateId) (s : Templates ι) :
    ∃ s₁, s₁.next = s.next ∧ s₁.iterfaceTemplates = s.iterfaceTemplates ∧
      (request isolate u s₁ = none → T.installInterfaceTemplate request isolate t ft s = none) ∧
      ∀ p s₂, request isolate u s₁ = some (p, s₂) →
        ∃ s', T.installInterfaceTemplate request isolate t ft s = some s' ∧ s'.next = s₂.next ∧
          s'.iterfaceTemplates = s₂.iterfaceTemplates := by
  have hp : (T.info t).parentClass = some u := hu
  let s₁ := (((s.modify ft fun f => { f with className := newFromOneByte (T.info t).interfaceName }).modify ft
    fun f => { f with prototypeReadOnly := true }).modify ft
    fun f => { f with instanceFieldCount := (T.info t).internalFieldCount }).modify ft
    (Config.setClassString (T.info t).interfaceName)
  have hx : T.installInterfaceTemplate request isolate t ft s =
      ((request isolate u s₁).map fun r => (r.2.modify ft fun f => { f with parent := some r.1 }).modify ft
        fun f => { f with prototypeFieldCount := 1 }).map
        (((T.install t).map (TemplateCall.map fun _ => ft)).foldl fun s c => s.modify ft (·.call c)) := by
    simp only [installInterfaceTemplate, Config.initializeInterfaceTemplate, hp, Option.bind_eq_bind]
    cases request isolate u s₁ <;> rfl
  refine ⟨s₁, rfl, rfl, fun hr => ?_, fun p s₂ hr => ?_⟩
  · rw [hx, hr, Option.map_none, Option.map_none]
  · rw [hx, hr]
    exact ⟨_, rfl, foldl_modify_cache ..⟩

theorem interfaceTemplate_eq (fuel : Nat) (isolate : IsolateId) (t : ι) (s : Templates ι) :
    (T.pending s fuel t = none → T.interfaceTemplate fuel isolate t s = none) ∧
      ∀ us, T.pending s fuel t = some us → ∃ s', T.Installs isolate us s s' ∧
        T.interfaceTemplate fuel isolate t s = some ((s.cached (T.name t)).getD s.next, s') := by
  induction fuel generalizing t s with
  | zero => exact ⟨fun _ => rfl, fun us h => (Option.some_ne_none us h.symm).elim⟩
  | succ fuel ih =>
    cases hc : s.iterfaceTemplates (T.name t) with
    | some e =>
      have hpending : T.pending s (fuel + 1) t = some [] := by rw [pending, hc]
      have hcached : s.cached (T.name t) = some e.template := by rw [Templates.cached, hc, Option.map_some]
      refine ⟨fun h => absurd (h.symm.trans hpending) (by simp), fun us h => ?_⟩
      cases hpending.symm.trans h
      refine ⟨s.record (.returned isolate t e.template), ⟨rfl, rfl⟩, ?_⟩
      rw [hcached, interfaceTemplate]
      simp only [show s.iterfaceTemplates (T.info t).interfaceName = some e from hc]
      rfl
    | none =>
      have hcached : s.cached (T.name t) = none := by rw [Templates.cached, hc, Option.map_none]
      -- the types are installed before they are inserted, so the parent's request sees the same cache
      let s₀ := (s.new isolate).2.record (.installed t s.next)
      have hx : T.interfaceTemplate (fuel + 1) isolate t s =
          (T.installInterfaceTemplate (T.interfaceTemplate fuel) isolate t s.next s₀).map fun s' =>
            (s.next, (s'.insert (T.name t) ⟨isolate, s.next⟩).record (.returned isolate t s.next)) := by
        rw [interfaceTemplate]
        simp only [show s.iterfaceTemplates (T.info t).interfaceName = none from hc, Option.bind_eq_bind]
        exact Option.map_eq_bind.symm
      rw [hcached, Option.getD_none, hx]
      cases hu : T.parent t with
      | none =>
        have hpending : T.pending s (fuel + 1) t = some [t] := by rw [pending, hc, hu]
        obtain ⟨s₁, h₁, hnext, hcache⟩ := installInterfaceTemplate_of_root (T.interfaceTemplate fuel) isolate hu s.next s₀
        refine ⟨fun h => absurd (h.symm.trans hpending) (by simp), fun us h => ?_⟩
        cases hpending.symm.trans h
        rw [h₁]
        obtain ⟨hn, hi⟩ := insert_cache s₁ (T.name t) ⟨isolate, s.next⟩
        refine ⟨(s₁.insert (T.name t) ⟨isolate, s.next⟩).record (.returned isolate t s.next),
          ⟨hn.trans hnext, hi.trans ?_⟩, rfl⟩
        rw [hcache]
        rfl
      | some u =>
        obtain ⟨s₁, hn₁, hc₁, hnone, hsome⟩ :=
          installInterfaceTemplate_of_parent (T.interfaceTemplate fuel) isolate hu s.next s₀
        have hpending : T.pending s (fuel + 1) t = (T.pending s₁ fuel u).map (t :: ·) := by
          rw [pending_congr (show s₁.iterfaceTemplates = s.iterfaceTemplates from hc₁), pending, hc, hu]
        obtain ⟨hfails, hreturns⟩ := ih u s₁
        refine ⟨fun h => ?_, fun us h => ?_⟩
        · rw [hpending, Option.map_eq_none_iff] at h
          rw [hnone (hfails h), Option.map_none]
        · rw [hpending] at h
          obtain ⟨vs, hvs, rfl⟩ := Option.map_eq_some_iff.mp h
          obtain ⟨s₂, hs₂, hreq⟩ := hreturns vs hvs
          obtain ⟨s₃, h₃, hn₃, hc₃⟩ := hsome _ s₂ hreq
          obtain ⟨hn, hi⟩ := insert_cache s₃ (T.name t) ⟨isolate, s.next⟩
          rw [h₃]
          refine ⟨(s₃.insert (T.name t) ⟨isolate, s.next⟩).record (.returned isolate t s.next),
            ⟨hn.trans ?_, hi.trans ?_⟩, rfl⟩
          · rw [hn₃, hs₂.next, hn₁, List.length_cons]
            exact (Nat.add_assoc s.next 1 vs.length).trans (congrArg _ (Nat.add_comm 1 vs.length))
          · rw [hc₃, hs₂.cache, hn₁, hc₁]
            rfl

/-! ## What is installed -/

/-- The types are installed that a request comes to before one that is cached. -/
def Uncached (T : TypeTable ι) (s : Templates ι) (t : ι) (k : Nat) (u : ι) : Prop :=
  climb T.parent k t = some u ∧ ∀ j ≤ k, ∀ v, climb T.parent j t = some v → s.cached (T.name v) = none

theorem cached_eq_none_iff {s : Templates ι} {name : String} :
    s.cached name = none ↔ s.iterfaceTemplates name = none := Option.map_eq_none_iff

theorem uncached_succ_iff {s : Templates ι} {t u v : ι} (hu : T.parent t = some u) (hc : s.cached (T.name t) = none)
    (k : Nat) : T.Uncached s t (k + 1) v ↔ T.Uncached s u k v := by
  have hclimb : ∀ j, climb T.parent (j + 1) t = climb T.parent j u := fun j => by
    rw [climb, hu, Option.bind_some]
  rw [Uncached, Uncached, hclimb]
  refine and_congr_right fun _ => ⟨fun h j hj w hw => ?_, fun h j hj w hw => ?_⟩
  · exact h (j + 1) (Nat.succ_le_succ hj) w ((hclimb j).trans hw)
  · cases j with
    | zero =>
      cases hw
      exact hc
    | succ j => exact h j (Nat.le_of_succ_le_succ hj) w ((hclimb j).symm.trans hw)

/-- The types that a request installs, in their order. -/
theorem getElem?_pending {s : Templates ι} {fuel : Nat} {t : ι} {us : List ι} (h : T.pending s fuel t = some us)
    (k : Nat) (u : ι) : us[k]? = some u ↔ T.Uncached s t k u := by
  induction fuel generalizing t us k with
  | zero => cases h
  | succ fuel ih =>
    unfold pending at h
    cases hc : s.iterfaceTemplates (T.name t) with
    | some e =>
      rw [hc] at h
      cases h
      refine iff_of_false (by simp) fun hun => ?_
      exact Option.some_ne_none e (hc.symm.trans (cached_eq_none_iff.mp (hun.2 0 (Nat.zero_le k) t rfl)))
    | none =>
      rw [hc] at h
      have hcached := cached_eq_none_iff.mpr hc
      have hzero : T.Uncached s t 0 u ↔ t = u := by
        refine ⟨fun hun => Option.some.inj hun.1, ?_⟩
        rintro rfl
        refine ⟨rfl, fun j hj v hv => ?_⟩
        cases Nat.le_zero.mp hj
        cases hv
        exact hcached
      cases hu : T.parent t with
      | none =>
        rw [hu] at h
        cases h
        cases k with
        | zero => rw [hzero, List.getElem?_cons_zero, Option.some.injEq]
        | succ k =>
          refine iff_of_false (by simp) fun hun => ?_
          have hclimb := hun.1
          rw [climb, hu, Option.bind_none] at hclimb
          cases hclimb
      | some v =>
        rw [hu] at h
        obtain ⟨vs, hvs, rfl⟩ := Option.map_eq_some_iff.mp h
        cases k with
        | zero => rw [hzero, List.getElem?_cons_zero, Option.some.injEq]
        | succ k => rw [List.getElem?_cons_succ, uncached_succ_iff hu hcached, ih hvs]

/-- There is an end to what a request installs. -/
theorem exists_pending_iff {s : Templates ι} {t : ι} : (∃ fuel us, T.pending s fuel t = some us) ↔
    ∃ k u, climb T.parent k t = some u ∧ (T.parent u = none ∨ s.cached (T.name u) ≠ none) := by
  constructor
  · rintro ⟨fuel, us, h⟩
    induction fuel generalizing t us with
    | zero => cases h
    | succ fuel ih =>
      unfold pending at h
      cases hc : s.iterfaceTemplates (T.name t) with
      | some e => exact ⟨0, t, rfl, .inr (by simp [Templates.cached, hc])⟩
      | none =>
        cases hu : T.parent t with
        | none => exact ⟨0, t, rfl, .inl hu⟩
        | some u =>
          rw [hc, hu] at h
          obtain ⟨vs, hvs, -⟩ := Option.map_eq_some_iff.mp h
          obtain ⟨k, v, hv, hend⟩ := ih vs hvs
          exact ⟨k + 1, v, by rw [climb, hu, Option.bind_some, hv], hend⟩
  · rintro ⟨k, u, hclimb, hend⟩
    induction k generalizing t with
    | zero =>
      cases hclimb
      refine ⟨1, ?_⟩
      unfold pending
      cases hc : s.iterfaceTemplates (T.name u) with
      | some e => exact ⟨[], rfl⟩
      | none =>
        rw [hend.resolve_right (not_not.mpr (cached_eq_none_iff.mpr hc))]
        exact ⟨[u], rfl⟩
    | succ k ih =>
      obtain ⟨v, hv, hclimb⟩ := Option.bind_eq_some_iff.mp hclimb
      obtain ⟨fuel, us, h⟩ := ih hclimb
      refine ⟨fuel + 1, ?_⟩
      unfold pending
      cases hc : s.iterfaceTemplates (T.name t) with
      | some e => exact ⟨[], rfl⟩
      | none =>
        rw [hv]
        exact ⟨t :: us, congrArg (Option.map (t :: ·)) h⟩

/-! ## What is cached -/

section

variable {isolate : IsolateId} {t : ι} {us : List ι} {n : TemplateId} {cache : String → Option Eternal}

theorem insertAll_cons_of_some {e : Eternal} (h : T.insertAll isolate us (n + 1) cache (T.name t) = some e) :
    T.insertAll isolate (t :: us) n cache = T.insertAll isolate us (n + 1) cache := by
  rw [insertAll, h]

theorem insertAll_cons_of_none (h : T.insertAll isolate us (n + 1) cache (T.name t) = none) :
    T.insertAll isolate (t :: us) n cache =
      Function.update (T.insertAll isolate us (n + 1) cache) (T.name t) (some ⟨isolate, n⟩) := by
  rw [insertAll, h]

/-- What was cached stays. -/
theorem insertAll_of_some {name : String} {e : Eternal} (h : cache name = some e) :
    T.insertAll isolate us n cache name = some e := by
  induction us generalizing n with
  | nil => exact h
  | cons t us ih =>
    cases ht : T.insertAll isolate us (n + 1) cache (T.name t) with
    | some e' => rw [insertAll_cons_of_some ht, ih]
    | none =>
      have hne : name ≠ T.name t := by
        rintro rfl
        exact Option.some_ne_none e (ih.symm.trans ht)
      rw [insertAll_cons_of_none ht, Function.update_of_ne hne, ih]

/-- The new entries are of the types, and their templates are new. -/
theorem insertAll_eq_some {name : String} {e : Eternal} (h : T.insertAll isolate us n cache name = some e)
    (hnone : cache name = none) : n ≤ e.template ∧ ∃ u ∈ us, T.name u = name := by
  induction us generalizing n with
  | nil => exact (Option.some_ne_none e (h.symm.trans hnone)).elim
  | cons t us ih =>
    have hrest : T.insertAll isolate us (n + 1) cache name = some e →
        n ≤ e.template ∧ ∃ u ∈ t :: us, T.name u = name := by
      intro h
      obtain ⟨hn, u, hu, hname⟩ := ih h
      exact ⟨Nat.le_of_succ_le hn, u, List.mem_cons_of_mem t hu, hname⟩
    cases ht : T.insertAll isolate us (n + 1) cache (T.name t) with
    | some e' =>
      rw [insertAll_cons_of_some ht] at h
      exact hrest h
    | none =>
      rw [insertAll_cons_of_none ht] at h
      by_cases hname : name = T.name t
      · rw [hname, Function.update_self, Option.some.injEq] at h
        rw [← h]
        exact ⟨Nat.le_refl n, t, List.mem_cons_self, hname.symm⟩
      · rw [Function.update_of_ne hname] at h
        exact hrest h

theorem insertAll_ne_none {u : ι} (h : u ∈ us) : T.insertAll isolate us n cache (T.name u) ≠ none := by
  induction us generalizing n with
  | nil => cases h
  | cons t us ih =>
    cases ht : T.insertAll isolate us (n + 1) cache (T.name t) with
    | some e =>
      rw [insertAll_cons_of_some ht]
      rcases List.mem_cons.mp h with rfl | h
      · rw [ht]
        exact Option.some_ne_none e
      · exact ih h
    | none =>
      rw [insertAll_cons_of_none ht]
      by_cases hname : T.name u = T.name t
      · rw [hname, Function.update_self]
        exact Option.some_ne_none _
      · rw [Function.update_of_ne hname]
        exact ih ((List.mem_cons.mp h).resolve_left fun hu => hname (congrArg T.name hu))

/-- The template of the first type is cached unless another has the name. -/
theorem insertAll_first_iff (hnone : cache (T.name t) = none) :
    (T.insertAll isolate (t :: us) n cache (T.name t)).map Eternal.template = some n ↔
      ∀ u ∈ us, T.name u ≠ T.name t := by
  cases ht : T.insertAll isolate us (n + 1) cache (T.name t) with
  | some e =>
    obtain ⟨hn, u, hu, hname⟩ := insertAll_eq_some ht hnone
    rw [insertAll_cons_of_some ht, ht, Option.map_some, Option.some.injEq]
    exact iff_of_false (fun h => Nat.not_succ_le_self n (h ▸ hn)) fun h => h u hu hname
  | none =>
    rw [insertAll_cons_of_none ht, Function.update_self, Option.map_some]
    refine iff_of_true rfl fun u hu hname => ?_
    rw [← hname] at ht
    exact insertAll_ne_none hu ht

end

theorem Installs.cached_mono {isolate : IsolateId} {us : List ι} {s s' : Templates ι} (h : T.Installs isolate us s s')
    {name : String} {a : TemplateId} (ha : s.cached name = some a) : s'.cached name = some a := by
  obtain ⟨e, he, rfl⟩ := Option.map_eq_some_iff.mp ha
  rw [Templates.cached, h.cache, insertAll_of_some he, Option.map_some]

end TypeTable

/-- For any wrapper types, from any cache: a request returns exactly if it comes to a
type that is cached or has no parent. Where it returns, the cache keeps what it had; what
is returned is cached exactly if no type that is installed before it has its name. -/
theorem request_iff (T : TypeTable ι) (isolate : IsolateId) (t : ι) (s : Templates ι) :
    ((∃ fuel r, T.interfaceTemplate fuel isolate t s = some r) ↔
      ∃ k u, climb T.parent k t = some u ∧ (T.parent u = none ∨ s.cached (T.name u) ≠ none)) ∧
    ∀ fuel ft s', T.interfaceTemplate fuel isolate t s = some (ft, s') →
      (∀ name a, s.cached name = some a → s'.cached name = some a) ∧
      (s'.cached (T.name t) = some ft ↔ ∀ k u, T.Uncached s t (k + 1) u → T.name u ≠ T.name t) := by
  have hinstalls : ∀ {fuel r}, T.interfaceTemplate fuel isolate t s = some r →
      ∃ us, T.pending s fuel t = some us ∧ T.Installs isolate us s r.2 ∧ r.1 = (s.cached (T.name t)).getD s.next := by
    intro fuel r hr
    obtain ⟨hnone, hsome⟩ := TypeTable.interfaceTemplate_eq fuel isolate t s
    cases hp : T.pending s fuel t with
    | none => exact (Option.some_ne_none r (hr.symm.trans (hnone hp))).elim
    | some us =>
      obtain ⟨s', hs', heq⟩ := hsome us hp
      cases heq.symm.trans hr
      exact ⟨us, rfl, hs', rfl⟩
  constructor
  · rw [← TypeTable.exists_pending_iff]
    constructor
    · rintro ⟨fuel, r, hr⟩
      obtain ⟨us, hus, -⟩ := hinstalls hr
      exact ⟨fuel, us, hus⟩
    · rintro ⟨fuel, us, hus⟩
      obtain ⟨s', -, heq⟩ := (TypeTable.interfaceTemplate_eq fuel isolate t s).2 us hus
      exact ⟨fuel, _, heq⟩
  · intro fuel ft s' hr
    obtain ⟨us, hus, hs', hft⟩ := hinstalls hr
    have hft : ft = (s.cached (T.name t)).getD s.next := hft
    refine ⟨fun name a ha => hs'.cached_mono ha, ?_⟩
    cases hc : s.cached (T.name t) with
    | some a =>
      refine iff_of_true ?_ fun k u hun => ?_
      · rw [hs'.cached_mono hc, hft, hc, Option.getD_some]
      · exact (Option.some_ne_none a (hc.symm.trans (hun.2 0 (Nat.zero_le _) t rfl))).elim
    | none =>
      -- the first of the types is `t`
      obtain ⟨v, vs, rfl⟩ : ∃ v vs, us = v :: vs := by
        cases us with
        | cons v vs => exact ⟨v, vs, rfl⟩
        | nil =>
          have hnil := (TypeTable.getElem?_pending hus 0 t).mpr ⟨rfl, fun j hj w hw => by
            cases Nat.le_zero.mp hj
            cases hw
            exact hc⟩
          cases hnil
      obtain rfl : v = t := by
        have hv := (TypeTable.getElem?_pending hus 0 v).mp rfl
        exact (Option.some.inj hv.1).symm
      have hcache : s'.cached (T.name v) =
          (T.insertAll isolate (v :: vs) s.next s.iterfaceTemplates (T.name v)).map Eternal.template := by
        rw [Templates.cached, hs'.cache]
      rw [hcache, hft, hc, Option.getD_none, TypeTable.insertAll_first_iff (TypeTable.cached_eq_none_iff.mp hc)]
      constructor
      · intro h k u hun
        have hu := (TypeTable.getElem?_pending hus (k + 1) u).mpr hun
        exact h u (List.mem_of_getElem? (List.getElem?_cons_succ.symm.trans hu))
      · intro h u hu
        obtain ⟨k, hk⟩ := List.mem_iff_getElem?.mp hu
        exact h k u ((TypeTable.getElem?_pending hus (k + 1) u).mp (List.getElem?_cons_succ.trans hk))

/-- A class with the name of its parent: the template that is returned is not the cached one. -/
example :
    let T : TypeTable Bool :=
      { info := fun t => { templateFunction := t, interfaceName := "Event", parentClass := if t then some false else none,
                           internalFieldCount := 2, gcClassId := 1 }
        install := fun _ => []
        templateFunction_self := fun _ => rfl }
    (T.interfaceTemplate 2 0 true .empty).map (fun r => (r.1, r.2.cached "Event")) = some (0, some 1) := by decide

end NativeObjects
