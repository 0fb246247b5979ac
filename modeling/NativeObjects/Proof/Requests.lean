import NativeObjects.Model.V8Event
import NativeObjects.Proof.Templates

/-!
# Sequences of requests for interface templates

`requests_spec`: what a sequence of requests, on any isolates, leaves in the
cache. On one isolate the cache is a faithful memo of the type hierarchy
(`requests_memoised`); over several isolates every request is answered with a
template of its own isolate exactly when no two isolates ask for types with a
common ancestor (`requests_perIsolate_iff`), the map being one for the process.
-/

namespace NativeObjects.Templates

variable {ι : Type} {T : TypeFamily ι}

open Lib.Forest (Above Ends Acyclic)

/-- Some request of `calls` asks for `u` on the isolate `i`. -/
def AskedFor (T : TypeFamily ι) (calls : List (IsolateId × ι)) (i : IsolateId) (u : ι) : Prop :=
  ∃ c ∈ calls, Under T c.1 c.2 i u

/-- The answers `fts` to `calls` are in the cache of `s`, and in its history. -/
structure Answers (T : TypeFamily ι) (s : Templates ι) (calls : List (IsolateId × ι)) (fts : List TemplateId) :
    Prop where
  held : ∀ c ∈ calls, ∃ e, Holds T s c.2 e ∧ .returned c.1 c.2 e.template ∈ s.log
  cached : fts.map some = calls.map fun c => s.cached (T.name c.2)

/-- Requests whose chains of parents end within the fuel are all answered. -/
theorem requests_spec [DecidableEq ι] {fuel : Nat} {calls : List (IsolateId × ι)} {s : Templates ι}
    (h : Inv T [] s) (he : ∀ c ∈ calls, Ends T.parent fuel c.2) :
    ∃ fts s', T.requests fuel calls s = some (fts, s') ∧ Inv T [] s' ∧
      Progress T (AskedFor T calls) s.next s s' ∧ Answers T s' calls fts := by
  induction calls generalizing s with
  | nil =>
    exact ⟨[], s, rfl, h, ⟨le_refl _, fun _ _ => rfl, fun _ _ h => h, fun _ h => h, fun _ _ => .inl, fun _ _ _ => .inl⟩,
      fun _ hc => (nomatch hc), rfl⟩
  | cons c calls ih =>
    obtain ⟨ft, s₁, heq₁, h₁, hq⟩ := interfaceTemplate_spec c.1 h (fun _ hx => nomatch hx)
      (he c List.mem_cons_self)
    obtain ⟨fts, s₂, heq₂, h₂, hp, ha⟩ := ih h₁ fun c hc => he c (List.mem_cons_of_mem _ hc)
    obtain ⟨e, hh, hft⟩ := hq.holds
    have hp₁ : Progress T (AskedFor T (c :: calls)) s.next s s₁ :=
      hq.progress.mono (fun i u hu => ⟨c, List.mem_cons_self, hu⟩) (le_refl _)
    have hp₂ : Progress T (AskedFor T (c :: calls)) s.next s₁ s₂ :=
      hp.mono (fun i u ⟨c', hc', hu⟩ => ⟨c', List.mem_cons_of_mem _ hc', hu⟩) hq.progress.next
    refine ⟨ft :: fts, s₂, ?_, h₂, hp₁.trans hp₂, ?_, ?_⟩
    · simp only [TypeTable.requests, heq₁, heq₂, Option.bind_eq_bind, Option.bind_some, Option.pure_def]
    · refine List.forall_mem_cons.mpr ⟨⟨e, hp.cache _ e hh, ?_⟩, ha.held⟩
      rw [hft]
      exact hp.log _ hq.returned
    · rw [List.map_cons, List.map_cons, ha.cached, cached_of_holds (hp.cache _ e hh), hft]

/-! ## What the cache holds -/

/-- The parent of a cached type is cached too, and was requested on the same isolate. -/
theorem Inv.parent [DecidableEq ι] {s : Templates ι} (h : Inv T [] s) {t u : ι} {e : Eternal} (he : Holds T s t e)
    (hu : T.parent t = some u) : ∃ e', Holds T s u e' ∧ .returned e.isolate u e'.template ∈ s.log := by
  obtain ⟨p, hp, -⟩ := h.built t e he
  unfold ParentHandle at hp
  rw [hu] at hp
  obtain ⟨e', he', -, hr⟩ := hp
  exact ⟨e', he', hr⟩

theorem Inv.above [DecidableEq ι] {s : Templates ι} (h : Inv T [] s) {t u : ι} (hu : Above T.parent t u)
    (ht : ∃ e, Holds T s t e) : ∃ e, Holds T s u e := by
  induction hu with
  | refl => exact ht
  | tail _ hst ih =>
    obtain ⟨e, he⟩ := ih
    obtain ⟨e', he', -⟩ := h.parent he hst
    exact ⟨e', he'⟩

/-- The types in the cache are those that were requested, and their ancestors. -/
theorem cached_iff [DecidableEq ι] {calls : List (IsolateId × ι)} {fts : List TemplateId} {s : Templates ι}
    (h : Inv T [] s) {n : TemplateId} (hp : Progress T (AskedFor T calls) n .empty s) (ha : Answers T s calls fts)
    {u : ι} : (∃ e, Holds T s u e) ↔ ∃ c ∈ calls, Above T.parent c.2 u := by
  constructor
  · rintro ⟨e, he⟩
    rcases hp.fresh u e he with he | ⟨c, hc, -, hu⟩
    · exact absurd he not_holds_empty
    · exact ⟨c, hc, hu⟩
  · rintro ⟨c, hc, hu⟩
    obtain ⟨e, he, -⟩ := ha.held c hc
    exact h.above hu ⟨e, he⟩

/-- The templates of all cached types are for one isolate, if all requests are on it. -/
theorem isolate_of_holds {isolate : IsolateId} {types : List ι} {s : Templates ι} {n : TemplateId}
    (hp : Progress T (AskedFor T (types.map (isolate, ·))) n .empty s) {t : ι} {e : Eternal} (he : Holds T s t e) :
    e.isolate = isolate := by
  rcases hp.fresh t e he with he | ⟨c, hc, hi, -⟩
  · exact absurd he not_holds_empty
  · obtain ⟨u, -, rfl⟩ := List.mem_map.mp hc
    exact hi

/-! ## Renaming -/

theorem call_map {τ τ' : Type} (ρ : τ → τ') (f : FunctionTemplate ι τ) (c : TemplateCall ι τ) :
    (f.call c).map ρ = (f.map ρ).call (c.map ρ) := by
  cases c with
  | setCallHandler callback => rfl
  | setLength length => rfl
  | setProperty place p =>
    simp only [FunctionTemplate.call, FunctionTemplate.setProperty, FunctionTemplate.map, TemplateCall.map]
    congr 1
    funext place'
    by_cases h : place' = place
    · subst h
      simp only [Function.update_self, List.map_append, List.map_cons, List.map_nil]
    · simp only [Function.update_of_ne h]

theorem foldl_call_map {τ τ' : Type} (ρ : τ → τ') (calls : List (TemplateCall ι τ)) (f : FunctionTemplate ι τ) :
    (calls.foldl FunctionTemplate.call f).map ρ =
      (calls.map (TemplateCall.map ρ)).foldl FunctionTemplate.call (f.map ρ) := by
  induction calls generalizing f with
  | nil => rfl
  | cons c calls ih => rw [List.foldl_cons, List.map_cons, List.foldl_cons, ih, call_map]

theorem TemplateCall.map_map {τ τ' τ'' : Type} (g : τ' → τ'') (f : τ → τ') (c : TemplateCall ι τ) :
    (c.map f).map g = c.map (g ∘ f) := by
  rcases c with _ | _ | ⟨place, _ | _ | _⟩ <;>
    simp [TemplateCall.map, Property.map, FunctionValue.map, Option.map_map]

theorem initialized_map (ρ : TemplateId → TemplateId) (isolate : IsolateId) (t : ι) (p : Option TemplateId) :
    (initialized T isolate t p).map ρ = initialized T isolate t (p.map ρ) := by
  have h : ∀ place, ((initialized T isolate t p).properties place).map (Property.map ρ) =
      (initialized T isolate t p).properties place := by
    intro place
    cases p <;> cases place <;> rfl
  unfold FunctionTemplate.map
  rw [funext h]
  cases p <;> rfl

/-- The content of a template names no template but itself and its parent. -/
theorem built_map (ρ : TemplateId → TemplateId) (isolate : IsolateId) (t : ι) (ft : TemplateId)
    (p : Option TemplateId) :
    (built T isolate t ft p).map ρ = built T isolate t (ρ ft) (p.map ρ) := by
  unfold built
  rw [foldl_call_map, initialized_map, List.map_map]
  congr 1
  exact List.map_congr_left fun c _ => TemplateCall.map_map ρ _ c

/-! ## One isolate -/

/-- The cache of `s` is a faithful memo of the hierarchy of `T`. -/
structure Memoised [DecidableEq ι] (T : TypeFamily ι) (isolate : IsolateId) (s : Templates ι) : Prop where
  /-- An install function runs at most once. -/
  installed_once : ∀ t, s.log.countP (isInstalled t) ≤ 1
  /-- Every request, nested ones included, returned what the cache has. -/
  returned : ∀ i t ft, .returned i t ft ∈ s.log → s.cached (T.name t) = some ft
  /-- A cached template is complete: it is what the install function makes. -/
  complete : ∀ t ft, s.cached (T.name t) = some ft → ∃ p, s.templates ft = some (built T isolate t ft p)
  /-- A template inherits from the cached template of its parent type. -/
  parent : ∀ t ft, s.cached (T.name t) = some ft → ∃ f, s.templates ft = some f ∧
    f.parent = (T.parent t).bind (fun u => s.cached (T.name u)) ∧ f.parent.isSome = (T.parent t).isSome
  /-- Types have different templates. -/
  injective : ∀ t u ft, s.cached (T.name t) = some ft → s.cached (T.name u) = some ft → t = u
  /-- No template is modified after a request returned it. -/
  settled : Settled s.log

theorem Inv.memoised [DecidableEq ι] {s : Templates ι} (h : Inv T [] s) {isolate : IsolateId}
    (hi : ∀ t e, Holds T s t e → e.isolate = isolate) : Memoised T isolate s := by
  have hc : ∀ t ft, s.cached (T.name t) = some ft → ∃ e, Holds T s t e ∧ e.template = ft :=
    fun t ft hft => Option.map_eq_some_iff.mp hft
  constructor
  case installed_once => exact h.installed_once
  case returned =>
    intro i t ft hr
    obtain ⟨e, he, rfl⟩ := h.returned i t ft hr
    exact cached_of_holds he
  case complete =>
    intro t ft hft
    obtain ⟨e, he, rfl⟩ := hc t ft hft
    obtain ⟨p, -, hb⟩ := h.built t e he
    exact ⟨p, hi t e he ▸ hb⟩
  case parent =>
    intro t ft hft
    obtain ⟨e, he, rfl⟩ := hc t ft hft
    obtain ⟨p, hp, hb⟩ := h.built t e he
    refine ⟨_, hb, (built_parent ..).1.trans (parentHandle_eq hp), ?_⟩
    rw [(built_parent ..).1, parentHandle_eq hp]
    cases hu : T.parent t with
    | none => rfl
    | some u =>
      obtain ⟨e', he', -⟩ := h.parent he hu
      rw [Option.bind_some, cached_of_holds he']
      rfl
  case injective =>
    intro t u ft ht hu
    obtain ⟨e, he, heq⟩ := hc t ft ht
    obtain ⟨e', he', heq'⟩ := hc u ft hu
    exact h.inj t u e e' he he' (heq.trans heq'.symm)
  case settled => exact h.settled

/-- The cache of `s'` is that of `s`, with the templates renamed by `ρ`. -/
structure Renamed (T : TypeFamily ι) (ρ : TemplateId → TemplateId) (s s' : Templates ι) : Prop where
  cache : ∀ name, s'.iterfaceTemplates name =
    (s.iterfaceTemplates name).map fun e => ⟨e.isolate, ρ e.template⟩
  injOn : Set.InjOn ρ {ft | ∃ t, s.cached (T.name t) = some ft}
  templates : ∀ t ft, s.cached (T.name t) = some ft →
    s'.templates (ρ ft) = (s.templates ft).map (FunctionTemplate.map ρ)

theorem Inv.renamed [DecidableEq ι] {s s' : Templates ι} (h : Inv T [] s) (h' : Inv T [] s') {isolate : IsolateId}
    (hi : ∀ t e, Holds T s t e → e.isolate = isolate) (hi' : ∀ t e, Holds T s' t e → e.isolate = isolate)
    (hiff : ∀ t, (∃ e, Holds T s t e) ↔ ∃ e, Holds T s' t e) : ∃ ρ, Renamed T ρ s s' := by
  -- a template of `s` goes to the template that `s'` has for the same type
  have hρ : ∀ ft, ∃ ft', ∀ t e e', Holds T s t e → e.template = ft → Holds T s' t e' → e'.template = ft' := by
    intro ft
    by_cases hft : ∃ t e, Holds T s t e ∧ e.template = ft
    · obtain ⟨t, e, he, heq⟩ := hft
      obtain ⟨e₁, he₁⟩ := (hiff t).mp ⟨e, he⟩
      refine ⟨e₁.template, fun u e₂ e' he₂ heq₂ he' => ?_⟩
      have hu := h.inj t u e e₂ he he₂ (heq.trans heq₂.symm)
      subst hu
      rw [Option.some.inj (he'.symm.trans he₁)]
    · exact ⟨0, fun t e _ he heq _ => absurd ⟨t, e, he, heq⟩ hft⟩
  choose ρ hρ using hρ
  have hmap : ∀ t e, Holds T s t e → Holds T s' t ⟨e.isolate, ρ e.template⟩ := by
    intro t e he
    obtain ⟨e', he'⟩ := (hiff t).mp ⟨e, he⟩
    have : e' = ⟨e.isolate, ρ e.template⟩ := by
      cases e'
      rw [Eternal.mk.injEq]
      exact ⟨(hi' t _ he').trans (hi t e he).symm, hρ _ t e _ he rfl he'⟩
    rwa [← this]
  refine ⟨ρ, fun name => ?_, ?_, fun t ft hft => ?_⟩
  · cases hn : s.iterfaceTemplates name with
    | some e =>
      obtain ⟨t, rfl⟩ := h.named name e hn
      exact hmap t e hn
    | none =>
      refine Option.eq_none_iff_forall_ne_some.mpr fun e' he' => ?_
      obtain ⟨t, rfl⟩ := h'.named name e' he'
      obtain ⟨e, he⟩ := (hiff t).mpr ⟨e', he'⟩
      exact absurd (hn.symm.trans he) (by simp)
  · rintro ft ⟨t, ht⟩ ft' ⟨u, hu⟩ heq
    obtain ⟨e, he, rfl⟩ := Option.map_eq_some_iff.mp ht
    obtain ⟨e', he', rfl⟩ := Option.map_eq_some_iff.mp hu
    have htu := h'.inj t u _ _ (hmap t e he) (hmap u e' he') heq
    subst htu
    rw [Option.some.inj (he.symm.trans he')]
  · obtain ⟨e, he, rfl⟩ := Option.map_eq_some_iff.mp hft
    obtain ⟨p, hp, hb⟩ := h.built t e he
    obtain ⟨p', hp', hb'⟩ := h'.built t _ (hmap t e he)
    have hpp : p' = p.map ρ := by
      rw [parentHandle_eq hp', parentHandle_eq hp]
      cases hu : T.parent t with
      | none => rfl
      | some u =>
        obtain ⟨e', he', -⟩ := h.parent he hu
        rw [Option.bind_some, Option.bind_some, cached_of_holds he', cached_of_holds (hmap u e' he'), Option.map_some]
    rw [hb, Option.map_some, built_map, ← hpp]
    exact hb'

/-- On one isolate, any requests for the types of a finite hierarchy without
cycles are answered from a faithful memo of it; requests for the same types in
another order make the same memo, up to the names of the templates. -/
theorem requests_memoised [Fintype ι] [DecidableEq ι] (T : TypeFamily ι) (hT : Acyclic T.parent)
    (isolate : IsolateId) (types : List ι) {fuel : Nat} (hf : Fintype.card ι ≤ fuel) :
    ∃ fts s, T.requests fuel (types.map (isolate, ·)) .empty = some (fts, s) ∧
      fts.map some = types.map (fun t => s.cached (T.name t)) ∧
      (∀ t, (s.cached (T.name t)).isSome ↔ ∃ u ∈ types, Above T.parent u t) ∧
      Memoised T isolate s ∧
      ∀ types' : List ι, (∀ t, t ∈ types' ↔ t ∈ types) →
        ∃ fts' s' ρ, T.requests fuel (types'.map (isolate, ·)) .empty = some (fts', s') ∧ Renamed T ρ s s' := by
  have he : ∀ types : List ι, ∀ c ∈ types.map (isolate, ·), Ends T.parent fuel c.2 := fun types c _ =>
    (Lib.Forest.ends_card_of_acyclic hT c.2).mono hf
  obtain ⟨fts, s, heq, h, hp, ha⟩ := requests_spec .empty (he types)
  have hc : ∀ t, (∃ e, Holds T s t e) ↔ ∃ u ∈ types, Above T.parent u t := by
    intro t
    simp only [cached_iff h hp ha, List.mem_map, exists_exists_and_eq_and]
  refine ⟨fts, s, heq, ?_, fun t => ?_, h.memoised fun t e => isolate_of_holds hp, fun types' htt => ?_⟩
  · rw [ha.cached, List.map_map]
    rfl
  · rw [← hc t, Templates.cached, Option.isSome_map, Option.isSome_iff_exists]
  · obtain ⟨fts', s', heq', h', hp', ha'⟩ := requests_spec .empty (he types')
    have hiff : ∀ t, (∃ e, Holds T s t e) ↔ ∃ e, Holds T s' t e := by
      intro t
      simp only [hc t, cached_iff h' hp' ha', List.mem_map, exists_exists_and_eq_and, htt]
    obtain ⟨ρ, hρ⟩ := h.renamed h' (fun t e => isolate_of_holds hp) (fun t e => isolate_of_holds hp') hiff
    exact ⟨fts', s', ρ, heq', hρ⟩

/-- The one type of the repository, requested twice. -/
theorem requests_memoised_event :
    ∃ fts s, (V8Event.embedding .standard).family.requests 1 ([.event, .event].map (0, ·)) .empty = some (fts, s) ∧
      fts.map some = [.event, .event].map (fun t => s.cached ((V8Event.embedding .standard).family.name t)) ∧
      Memoised (V8Event.embedding .standard).family 0 s := by
  obtain ⟨fts, s, heq, hc, -, hm, -⟩ := requests_memoised (V8Event.embedding .standard).family
    (V8Event.embedding .standard).acyclic 0 [.event, .event]
    (show Fintype.card V8Event.EventType ≤ 1 from le_refl 1)
  exact ⟨fts, s, heq, hc, hm⟩

/-! ## More fuel -/

/-- Two requests that answer alike make `InitializeInterfaceTemplate` answer alike. -/
theorem initializeInterfaceTemplate_mono
    {request request' : IsolateId → ι → Templates ι → Option (TemplateId × Templates ι)}
    (h : ∀ i t s r, request i t s = some r → request' i t s = some r) {isolate : IsolateId} {ft : TemplateId}
    {info : WrapperTypeInfo ι} {s s' : Templates ι}
    (hs : Config.initializeInterfaceTemplate request isolate ft info s = some s') :
    Config.initializeInterfaceTemplate request' isolate ft info s = some s' := by
  unfold Config.initializeInterfaceTemplate at hs ⊢
  cases hp : info.parentClass with
  | none =>
    rw [hp] at hs
    exact hs
  | some u =>
    rw [hp] at hs
    obtain ⟨r, hr, hs⟩ := Option.bind_eq_some_iff.mp hs
    exact Option.bind_eq_some_iff.mpr ⟨r, h _ _ _ _ hr, hs⟩

theorem interfaceTemplate_mono {fuel fuel' : Nat} (hf : fuel ≤ fuel') {isolate : IsolateId} {t : ι}
    {s : Templates ι} {r : TemplateId × Templates ι} (h : T.interfaceTemplate fuel isolate t s = some r) :
    T.interfaceTemplate fuel' isolate t s = some r := by
  induction fuel generalizing fuel' isolate t s r with
  | zero => cases h
  | succ fuel ih =>
    obtain ⟨fuel', rfl⟩ := Nat.exists_eq_succ_of_ne_zero (show fuel' ≠ 0 by omega)
    simp only [TypeTable.interfaceTemplate] at h ⊢
    cases hc : s.iterfaceTemplates (T.info t).interfaceName with
    | some e =>
      rw [hc] at h
      exact h
    | none =>
      rw [hc] at h
      simp only [TypeTable.installInterfaceTemplate, Option.bind_eq_bind, Option.bind_eq_some_iff] at h ⊢
      obtain ⟨s₁, ⟨s₂, h₂, h₁⟩, h⟩ := h
      exact ⟨s₁, ⟨s₂, initializeInterfaceTemplate_mono (fun i t s r => ih (by omega)) h₂, h₁⟩, h⟩

theorem requests_mono {fuel fuel' : Nat} (hf : fuel ≤ fuel') {calls : List (IsolateId × ι)} {s : Templates ι}
    {r : List TemplateId × Templates ι} (h : T.requests fuel calls s = some r) :
    T.requests fuel' calls s = some r := by
  induction calls generalizing s r with
  | nil => exact h
  | cons c calls ih =>
    simp only [TypeTable.requests, Option.bind_eq_bind, Option.bind_eq_some_iff] at h ⊢
    obtain ⟨r₁, h₁, r₂, h₂, h⟩ := h
    exact ⟨r₁, interfaceTemplate_mono hf h₁, r₂, ih h₂, h⟩

/-- A request that returns is for a type whose chain of parents ends. -/
theorem ends_of_interfaceTemplate {fuel : Nat} {isolate : IsolateId} {t : ι} {s : Templates ι}
    {r : TemplateId × Templates ι} (h : T.interfaceTemplate fuel isolate t s = some r)
    (hs : ∀ u e, Holds T s u e → ∃ n, Ends T.parent n u) : ∃ n, Ends T.parent n t := by
  induction fuel generalizing isolate t s r with
  | zero => cases h
  | succ fuel ih =>
    cases hc : s.iterfaceTemplates (T.info t).interfaceName with
    | some e => exact hs t e hc
    | none =>
      cases hu : T.parent t with
      | none => exact ⟨1, Lib.Forest.ends_succ_iff.mpr fun u h => absurd (hu.symm.trans h) (by simp)⟩
      | some u =>
        simp only [TypeTable.interfaceTemplate, hc, TypeTable.installInterfaceTemplate,
          Config.initializeInterfaceTemplate, show (T.info t).parentClass = some u from hu, Option.bind_eq_bind,
          Option.bind_eq_some_iff] at h
        obtain ⟨-, ⟨-, ⟨r', hr', -⟩, -⟩, -⟩ := h
        -- the request for the parent starts with the same cache
        obtain ⟨n, hn⟩ := ih hr' fun v e he => hs v e (by simpa [Holds] using he)
        refine ⟨n + 1, Lib.Forest.ends_succ_iff.mpr fun v hv => ?_⟩
        rwa [← Option.some.inj (hu.symm.trans hv)]

/-- One bound for all the chains of parents. -/
theorem exists_fuel {calls : List (IsolateId × ι)} (he : ∀ c ∈ calls, ∃ n, Ends T.parent n c.2) :
    ∃ m, ∀ c ∈ calls, Ends T.parent m c.2 := by
  induction calls with
  | nil => exact ⟨0, fun _ hc => nomatch hc⟩
  | cons c calls ih =>
    obtain ⟨n, hn⟩ := he c List.mem_cons_self
    obtain ⟨m, hm⟩ := ih fun c hc => he c (List.mem_cons_of_mem _ hc)
    exact ⟨max n m, List.forall_mem_cons.mpr ⟨hn.mono (Nat.le_max_left n m),
      fun c hc => (hm c hc).mono (Nat.le_max_right n m)⟩⟩

/-- Requests that are all answered are for types whose chains of parents end, and
keep the invariant. -/
theorem requests_inv [DecidableEq ι] {fuel : Nat} {calls : List (IsolateId × ι)} {fts : List TemplateId}
    {s s' : Templates ι} (hi : Inv T [] s) (h : T.requests fuel calls s = some (fts, s')) :
    (∀ c ∈ calls, ∃ n, Ends T.parent n c.2) ∧ Inv T [] s' ∧ Progress T (AskedFor T calls) s.next s s' ∧
      Answers T s' calls fts := by
  have he : ∀ c ∈ calls, ∃ n, Ends T.parent n c.2 := by
    induction calls generalizing s fts with
    | nil => exact fun _ hc => nomatch hc
    | cons c calls ih =>
      simp only [TypeTable.requests, Option.bind_eq_bind, Option.bind_eq_some_iff] at h
      obtain ⟨⟨ft, s₁⟩, h₁, ⟨fts', s₂⟩, h₂, h⟩ := h
      cases h
      obtain ⟨n, hn⟩ := ends_of_interfaceTemplate h₁ hi.ends
      obtain ⟨ft', s₁', heq, hi', -⟩ := interfaceTemplate_spec c.1 hi (fun _ hx => nomatch hx)
        (hn.mono (Nat.le_max_left n fuel))
      cases (interfaceTemplate_mono (Nat.le_max_right n fuel) h₁).symm.trans heq
      exact List.forall_mem_cons.mpr ⟨⟨n, hn⟩, ih hi' h₂⟩
  refine ⟨he, ?_⟩
  obtain ⟨m, hm⟩ := exists_fuel he
  obtain ⟨fts', s'', heq, hi', hp, ha⟩ := requests_spec hi fun c hc => (hm c hc).mono (Nat.le_max_left m fuel)
  cases (requests_mono (Nat.le_max_right m fuel) h).symm.trans heq
  exact ⟨hi', hp, ha⟩

/-! ## Several isolates -/

/-- Every request that returned, nested ones included, returned a template made
on its own isolate by its type's install function, and the one that the other
requests for the type on the isolate returned. -/
structure PerIsolate (s : Templates ι) : Prop where
  own : ∀ i t ft, .returned i t ft ∈ s.log →
    (∃ f, s.templates ft = some f ∧ f.isolate = i) ∧ .installed t ft ∈ s.log
  same : ∀ i t ft ft', .returned i t ft ∈ s.log → .returned i t ft' ∈ s.log → ft = ft'

/-- All the requests return, each with a template of its own isolate. -/
def AnsweredPerIsolate (T : TypeFamily ι) (calls : List (IsolateId × ι)) : Prop :=
  ∃ fuel fts s, T.requests fuel calls .empty = some (fts, s) ∧ PerIsolate s

/-- If all requests were answered with templates of their own isolates, then the
ancestors of a cached type are on its isolate. -/
theorem PerIsolate.above [DecidableEq ι] {s : Templates ι} (h : PerIsolate s) (hi : Inv T [] s) {t u : ι}
    {e : Eternal} (he : Holds T s t e) (hu : Above T.parent t u) :
    ∃ e', Holds T s u e' ∧ e'.isolate = e.isolate := by
  induction hu with
  | refl => exact ⟨e, he, rfl⟩
  | tail _ hst ih =>
    obtain ⟨e₁, he₁, heq₁⟩ := ih
    obtain ⟨e₂, he₂, hr⟩ := hi.parent he₁ hst
    obtain ⟨⟨f, hf, hfi⟩, -⟩ := h.own _ _ _ hr
    obtain ⟨p, -, hb⟩ := hi.built _ e₂ he₂
    cases hf.symm.trans hb
    exact ⟨e₂, he₂, ((built_parent ..).2.symm.trans hfi).trans heq₁⟩

/-- Requests are all answered with templates of their own isolates exactly when
the chains of parents of the types end, and no type is requested, directly or as
an ancestor, on two isolates. -/
theorem requests_perIsolate_iff [DecidableEq ι] (T : TypeFamily ι) (calls : List (IsolateId × ι)) :
    AnsweredPerIsolate T calls ↔ (∀ c ∈ calls, ∃ n, Ends T.parent n c.2) ∧
      ∀ c ∈ calls, ∀ c' ∈ calls, ∀ u, Above T.parent c.2 u → Above T.parent c'.2 u → c.1 = c'.1 := by
  constructor
  · rintro ⟨fuel, fts, s, heq, hs⟩
    obtain ⟨he, hi, -, ha⟩ := requests_inv .empty heq
    have hown : ∀ c ∈ calls, ∃ e, Holds T s c.2 e ∧ e.isolate = c.1 := by
      intro c hc
      obtain ⟨e, hh, hr⟩ := ha.held c hc
      obtain ⟨⟨f, hf, hfi⟩, -⟩ := hs.own _ _ _ hr
      obtain ⟨p, -, hb⟩ := hi.built _ e hh
      cases hf.symm.trans hb
      exact ⟨e, hh, (built_parent ..).2.symm.trans hfi⟩
    refine ⟨he, fun c hc c' hc' u hu hu' => ?_⟩
    obtain ⟨e, hh, hei⟩ := hown c hc
    obtain ⟨e', hh', hei'⟩ := hown c' hc'
    obtain ⟨e₁, hh₁, h₁⟩ := hs.above hi hh hu
    obtain ⟨e₂, hh₂, h₂⟩ := hs.above hi hh' hu'
    cases hh₁.symm.trans hh₂
    rw [← hei, ← hei', ← h₁, ← h₂]
  · rintro ⟨he, hdisj⟩
    obtain ⟨m, hm⟩ := exists_fuel he
    obtain ⟨fts, s, heq, hi, hp, -⟩ := requests_spec .empty hm
    refine ⟨m, fts, s, heq, ⟨fun i t ft hr => ?_, fun i t ft ft' hr hr' => ?_⟩⟩
    · obtain ⟨e, hh, rfl⟩ := hi.returned i t ft hr
      obtain ⟨p, -, hb⟩ := hi.built t e hh
      obtain ⟨c, hc, rfl, ht⟩ := (hp.asked _ _ _ hr).resolve_left List.not_mem_nil
      -- the request that made the template was for the same type
      obtain ⟨c', hc', hi', ht'⟩ := (hp.fresh t e hh).resolve_left not_holds_empty
      refine ⟨⟨_, hb, (built_parent ..).2.trans ?_⟩, hi.started t _ (.inl ⟨e, hh, rfl⟩)⟩
      exact hi'.trans (hdisj c' hc' c hc t ht' ht)
    · obtain ⟨e, hh, rfl⟩ := hi.returned i t ft hr
      obtain ⟨e', hh', rfl⟩ := hi.returned i t ft' hr'
      rw [Option.some.inj (hh.symm.trans hh')]

/-- Event's template requested on two isolates: the second request is answered
with the template of the first. -/
theorem not_answeredPerIsolate_event :
    ¬ AnsweredPerIsolate (V8Event.embedding .standard).family [(0, .event), (1, .event)] := by
  rintro ⟨fuel, fts, s, heq, hs⟩
  have heq' := requests_mono (Nat.le_max_left fuel 1) heq
  have hrun : ((V8Event.embedding .standard).family.requests 1 [(0, .event), (1, .event)] .empty).map
      (fun r => (r.2.log.head?, (r.2.templates 0).map FunctionTemplate.isolate)) =
        some (some (.returned 1 .event 0), some 0) := by decide
  obtain ⟨⟨fts', s'⟩, h', hlog⟩ := Option.map_eq_some_iff.mp hrun
  cases heq'.symm.trans (requests_mono (Nat.le_max_right fuel 1) h')
  simp only [Prod.mk.injEq] at hlog
  obtain ⟨⟨f, hf, hi⟩, -⟩ := hs.own 1 .event 0 (List.mem_of_mem_head? hlog.1)
  rw [hf, Option.map_some, hi] at hlog
  exact absurd hlog.2 (by decide)

end NativeObjects.Templates
