import NativeObjects.Proof.Races
import NativeObjects.Proof.Requests

/-!
# Isolates with classes of their own

The template cache hands an isolate what another put there (`requests_perIsolate_iff`).
If each class is used by one isolate, that does not happen: a class, and what it inherits
from, is cached with a template of its owner, and every request is answered with one of
the asking isolate (`Process.Owned`). What isolates then share, and race for, is the
constructor mode. Whatever mode a constructor callback finds, the heaps of each isolate
fit together, and a `Wrap` gets no instance just if it finds the mode to create objects
(`heaps_coherent`).
-/

namespace NativeObjects

open Lib (System)
open Lib.Forest (Above)

variable {ι κ : Type} {owner : ι → κ} {i : κ} {s s' : State ι}

/-! ## What a move does to templates and natives -/

variable (owner i s) in
/-- The natives are of classes of `i`. -/
def State.NativesOf : Prop := ∀ a n, s.natives a = some n → owner n.typeInfo = i

theorem State.NativesOf.update (h : s.NativesOf owner i) {a : Addr} {x : Option (Event ι)}
    (hs : s'.natives = Function.update s.natives a x) (hx : ∀ n, x = some n → owner n.typeInfo = i) :
    s'.NativesOf owner i := by
  intro b n hn
  rw [hs] at hn
  by_cases hb : b = a
  · rw [hb, Function.update_self] at hn
    exact hx n hn
  · rw [Function.update_of_ne hb] at hn
    exact h b n hn

theorem State.NativesOf.live (h : s.NativesOf owner i) {p : NativePtr} {n : Event ι} (hp : s.Live p n) :
    owner n.typeInfo = i := h p.addr n hp.1

/-- What a class inherits from is of the same isolate. -/
theorem owner_of_above {parent : ι → Option ι} (howner : ∀ t u, parent t = some u → owner u = owner t) {t u : ι}
    (hu : Above parent t u) : owner u = owner t := by
  induction hu with
  | refl => rfl
  | tail _ hst ih => exact (howner _ _ hst).trans ih

variable [Fintype ι]

/-- Between `s` and `s'` the isolate `i` asks for classes of its own only, and makes
natives of them only. -/
structure State.Advances (M : Embedding ι) (owner : ι → κ) (i : κ) (s s' : State ι) : Prop where
  isolate : s'.isolate = s.isolate
  templates : Templates.Progress M.family (fun j u => j = s.isolate ∧ owner u = i) 0 s.templates s'.templates
  natives : s.NativesOf owner i → s'.NativesOf owner i

variable {M : Embedding ι}

namespace State.Advances

/-- Nothing is asked for. -/
theorem of_natives (hisolate : s'.isolate = s.isolate) (ht : s'.templates = s.templates)
    (hn : s.NativesOf owner i → s'.NativesOf owner i) : s.Advances M owner i s' :=
  ⟨hisolate, ht ▸ .refl M.family _ _ _, hn⟩

/-- Nor is a native made. -/
theorem of_same (hisolate : s'.isolate = s.isolate) (ht : s'.templates = s.templates) (hn : s'.natives = s.natives) :
    s.Advances M owner i s' := .of_natives hisolate ht fun h a n ha => h a n (hn ▸ ha)

end State.Advances

variable [DecidableEq ι]

/-- A request for a class of the isolate. -/
theorem Embedding.interfaceTemplate_advances (howner : ∀ t u, M.family.parent t = some u → owner u = owner t)
    (h : Templates.Inv M.family [] s.templates) {t : ι} (ht : owner t = i) {ft : TemplateId}
    (heq : M.interfaceTemplate t s = some (ft, s')) : s.Advances M owner i s' := by
  obtain ⟨ft', templates, heq', -, hr⟩ := Templates.interfaceTemplate_spec s.isolate h (fun _ hx => nomatch hx)
    (Lib.Forest.ends_card_of_acyclic M.acyclic t)
  have hs : M.interfaceTemplate t s = some (ft', s.setTemplates templates) := by
    show (M.family.interfaceTemplate M.fuel s.isolate t s.templates).map _ = _
    rw [show M.family.interfaceTemplate M.fuel s.isolate t s.templates = _ from heq']
    rfl
  cases hs.symm.trans heq
  exact ⟨rfl, hr.progress.mono (fun j u hu => ⟨hu.1, (owner_of_above howner hu.2).trans ht⟩) (Nat.zero_le _), id⟩

/-- An operation that asks for no template. -/
theorem Effect.advances (hown : ∀ t ft, s.templates.cached (M.family.name t) = some ft → s.Owns ft → owner t = i)
    {op : Op ι} (he : Effect M s op s') (hop : ¬ op.IsWrap) (hreq : ∀ t, op ≠ .interfaceTemplate t)
    (hw : op.Within owner i s) : s.Advances M owner i s' := by
  cases he with
  | @interfaceTemplate t => exact absurd rfl (hreq t)
  | @newAccepted f args addr t v ht hfree ha =>
    have ht := hown t f.template ht hw
    refine .of_natives rfl rfl fun hn => ?_
    have h₁ : ((s.newObject (M.blank f t)).2.allocate ⟨addr, s.births⟩ (M.scripted t v s.births)).NativesOf owner i :=
      hn.update rfl fun n hn => by cases hn; exact ht
    exact h₁.update rfl fun n hn => by cases hn; exact ht
  | nativeNew hfree => exact .of_natives rfl rfl fun hn => hn.update rfl fun n hn => by cases hn; exact hw
  | wrapAgain => exact absurd trivial hop
  | wrapBare => exact absurd trivial hop
  | repaint hp hn =>
    exact .of_natives rfl rfl fun h => h.update rfl fun n hn' => by cases hn'; exact hn.typeInfo ▸ h.live hp
  | destroy hp => exact .of_natives rfl rfl fun h => h.update rfl fun n hn => by cases hn
  | collectWrapper _ hp _ _ => exact .of_natives rfl rfl fun h => h.update rfl fun n hn => by cases hn
  | _ => exact .of_same rfl rfl rfl

/-- An operation of the isolate, in whatever mode it finds. -/
theorem Coherent.exec_advances (howner : ∀ t u, M.family.parent t = some u → owner u = owner t) (h : Coherent M s)
    (hown : ∀ t ft, s.templates.cached (M.family.name t) = some ft → s.Owns ft → owner t = i) {op : Op ι}
    (hop : ¬ op.IsWrap) (hw : op.Within owner i s) (he : op.Enabled s) (hx : op.exec M.toHierarchy s = some s') :
    s.Advances M owner i s' := by
  by_cases hreq : ∃ t, op = .interfaceTemplate t
  · obtain ⟨t, rfl⟩ := hreq
    obtain ⟨⟨ft, s''⟩, heq, hx⟩ := Option.bind_eq_some_iff.mp hx
    cases hx
    exact M.interfaceTemplate_advances howner h.templates hw heq
  · rcases Op.exec_cases h he hx with heff | ⟨f, args, addr, t, rfl, rfl⟩
    · exact heff.advances hown hop (fun t ht => hreq ⟨t, ht⟩) hw
    · exact .of_same rfl rfl rfl

/-- The collector takes an object. -/
theorem Coherent.collect_advances (h : Coherent M s) {o : ObjectId} (hx : s.collect o = some s') :
    s.Advances M owner i s' := by
  rcases h.collect o with ⟨-, heq⟩ | ⟨p, n, c, hp, -, -, heq⟩
  · cases heq.symm.trans hx
    exact .of_same rfl rfl rfl
  · cases heq.symm.trans hx
    exact .of_natives rfl rfl fun h => h.update rfl fun n hn => by cases hn

/-! ## Processes -/

omit [DecidableEq ι] in
/-- What each isolate has asked for, and made natives of, is its own. -/
structure Process.Owned (M : Embedding ι) (owner : ι → κ) (p : Process ι κ) : Prop where
  distinct : Function.Injective fun i => (p.isolates i).isolate
  made : ∀ t e, Templates.Holds M.family p.templates t e → e.isolate = (p.isolates (owner t)).isolate
  asked : ∀ j t ft, .returned j t ft ∈ p.templates.log → j = (p.isolates (owner t)).isolate
  natives : ∀ i, (p.isolate i).NativesOf owner i

namespace Process

variable [DecidableEq κ] {p p' : Process ι κ}

namespace Owned

omit [DecidableEq ι] [DecidableEq κ] in
/-- The isolates are as they were, and so is what they share but the mode. -/
theorem same (h : p.Owned M owner) (hp : p'.isolates = p.isolates) (ht : p'.templates = p.templates) :
    p'.Owned M owner := by
  refine ⟨hp ▸ h.distinct, hp ▸ ht ▸ h.made, hp ▸ ht ▸ h.asked, fun i a n hn => h.natives i a n ?_⟩
  show (p.isolates i).natives a = some n
  rw [← hp]
  exact hn

omit [DecidableEq ι] in
/-- The isolate `i` was changed to `s`. -/
theorem put (h : p.Owned M owner) (hp : p'.isolates = Function.update p.isolates i s)
    (ht : p'.templates = s.templates) (hs : (p.isolate i).Advances M owner i s) : p'.Owned M owner := by
  have hisolate : ∀ j, (p'.isolates j).isolate = (p.isolates j).isolate := by
    intro j
    rw [hp]
    by_cases hji : j = i
    · rw [hji, Function.update_self]
      exact hs.isolate
    · rw [Function.update_of_ne hji]
  constructor
  case distinct =>
    intro j k hjk
    exact h.distinct ((hisolate j).symm.trans (Eq.trans hjk (hisolate k)))
  case made =>
    intro t e he
    rw [hisolate]
    rcases hs.templates.fresh t e (ht ▸ he) with he | ⟨he, rfl⟩
    · exact h.made t e he
    · exact he
  case asked =>
    intro j t ft hr
    rw [hisolate]
    rcases hs.templates.asked j t ft (ht ▸ hr) with hr | ⟨hj, rfl⟩
    · exact h.asked j t ft hr
    · exact hj
  case natives =>
    intro j a n hn
    have hn : (Function.update p.isolates i s j).natives a = some n := hp ▸ hn
    by_cases hji : j = i
    · subst hji
      rw [Function.update_self] at hn
      exact hs.natives (h.natives j) a n hn
    · rw [Function.update_of_ne hji] at hn
      exact h.natives j a n hn

omit [DecidableEq κ] in
/-- A template of an isolate is of a class of it. -/
theorem owner_eq (h : p.Owned M owner) (hi : Templates.Inv M.family [] p.templates) {t : ι} {ft : TemplateId}
    (ht : p.templates.cached (M.family.name t) = some ft) (hft : (p.isolate i).Owns ft) : owner t = i := by
  obtain ⟨e, he, rfl⟩ := Option.map_eq_some_iff.mp ht
  obtain ⟨parent, -, hb⟩ := hi.built t e he
  obtain ⟨template, htemplate, hisolate⟩ := hft
  cases hb.symm.trans htemplate
  rw [(Templates.built_parent ..).2, h.made t e he] at hisolate
  exact h.distinct hisolate

omit [DecidableEq κ] in
/-- Each request was answered with a template of the isolate that asked. -/
theorem perIsolate (h : p.Owned M owner) (hi : Templates.Inv M.family [] p.templates) : p.templates.PerIsolate where
  own j t ft hr := by
    obtain ⟨e, he, rfl⟩ := hi.returned j t ft hr
    obtain ⟨parent, -, hb⟩ := hi.built t e he
    refine ⟨⟨_, hb, ?_⟩, hi.started t _ (.inl ⟨e, he, rfl⟩)⟩
    rw [(Templates.built_parent ..).2, h.made t e he, h.asked j t _ hr]
  same j t ft ft' hr hr' := by
    obtain ⟨e, he, rfl⟩ := hi.returned j t ft hr
    obtain ⟨e', he', rfl⟩ := hi.returned j t ft' hr'
    rw [Option.some.inj (he.symm.trans he')]

theorem move (howner : ∀ t u, M.family.parent t = some u → owner u = owner t) (h : p.Owned M owner)
    (hfit : p.Fits M) {a : Move ι κ} (hw : a.Within owner p) (hs : (M.collecting κ).step p a p') :
    p'.Owned M owner := by
  cases hfit.moved hs with
  | @run i op s hidle hop he hx =>
    have hi := (hfit.coherent i).templates
    exact h.put rfl rfl ((hfit.coherent i).exec_advances howner (fun t ft => h.owner_eq hi) hop hw he hx)
  | wrapAgain => exact h.put rfl rfl (.of_same rfl rfl rfl)
  | save => exact h.same rfl rfl
  | setMode => exact h.same rfl rfl
  | noInstance => exact h.same rfl rfl
  | @instantiate i addr f n ft templates ht hm hfree hp hbare hty hi hcached hmono hreq =>
    have hof : owner f.wrapperTypeInfo = i := hty ▸ (h.natives i).live hp
    have hadv := M.interfaceTemplate_advances howner (hfit.coherent i).templates hof (hreq p.mode)
    exact h.put rfl rfl ⟨rfl, hadv.templates, id⟩
  | @associate i f wrapper n obj ht hp =>
    have hlink : (p.isolate i).Advances M owner i ((p.isolate i).link M.info f.this n n.typeInfo wrapper obj) :=
      .of_natives rfl rfl fun hn => hn.update rfl fun m hm => by cases hm; exact hn f.this.addr n hp.1
    exact h.put rfl rfl hlink
  | @restore i f o ht => exact h.put rfl rfl (.of_same rfl rfl rfl)
  | @collect i o s ho hne hx => exact h.put rfl rfl ((hfit.coherent i).collect_advances hx)

end Owned

end Process

/-! ## Runs -/

omit [DecidableEq ι] in
theorem Hierarchy.collecting_of_separate [DecidableEq κ] {M : Hierarchy ι} {tr : List (Process ι κ × Move ι κ)}
    {p : Process ι κ} (h : (M.separate owner).Run tr p) : (M.collecting κ).Run tr p :=
  h.mono (fun _ hi => hi) fun _ _ _ hst => hst.2.2

theorem Process.Owned.run [DecidableEq κ] (howner : ∀ t u, M.family.parent t = some u → owner u = owner t)
    {tr : List (Process ι κ × Move ι κ)} {p : Process ι κ} (h : (M.separate owner).Run tr p) :
    p.Fits M ∧ p.Owned M owner := by
  refine h.invariant' (P := fun p => p.Fits M ∧ p.Owned M owner) ?_ fun p a p' hp hs => ?_
  · rintro p ⟨isolate, context, hinj, rfl⟩
    refine ⟨⟨fun i => .initial (isolate i) (context i), fun _ => trivial⟩, hinj, fun t e he => ?_, fun j t ft hr => ?_,
      fun i a n hn => ?_⟩
    · exact absurd he Templates.not_holds_empty
    · exact absurd hr List.not_mem_nil
    · exact absurd hn (Option.some_ne_none n).symm
  · exact ⟨hp.1.move hs.2.2, hp.2.move howner hp.1 hs.2.1 hs.2.2⟩

/-- Every request was answered with a template of the isolate that asked. -/
theorem Process.perIsolate_run [DecidableEq κ] (howner : ∀ t u, M.family.parent t = some u → owner u = owner t)
    {tr : List (Process ι κ × Move ι κ)} {p : Process ι κ} (h : (M.separate owner).Run tr p) :
    p.templates.PerIsolate := by
  obtain ⟨hfit, hown⟩ := Process.Owned.run howner h
  -- a class has an isolate, its owner; without one there is no request
  have hper : ∀ t : ι, p.templates.PerIsolate := fun t => hown.perIsolate (hfit.coherent (owner t)).templates
  exact ⟨fun j t => (hper t).own j t, fun j t => (hper t).same j t⟩

/-- However the threads of isolates that use classes of their own race for the mode, and
whenever collectors run: the heaps of every isolate fit together, every request for a
template was answered with one of the isolate that asked, and the `NewInstance` of a
`Wrap` comes back empty just if it finds the mode to create objects. -/
theorem heaps_coherent [DecidableEq κ] (howner : ∀ t u, M.family.parent t = some u → owner u = owner t)
    {tr : List (Process ι κ × Move ι κ)} {p : Process ι κ} (h : (M.separate owner).Run tr p) :
    (∀ i, Coherent M (p.isolate i)) ∧ p.templates.PerIsolate ∧
      (∀ i f addr, p.threads i = .set f →
        (M.wrapInstance f.wrapperTypeInfo f.creationContext addr (p.isolate i) = none ↔ p.mode = .kCreateNewObject)) ∧
      (p.emptyInstance = true → ∃ q i addr, tr.head? = some (q, .step (.newInstance i addr)) ∧ q.mode = .kCreateNewObject) := by
  obtain ⟨hfit, -⟩ := Process.Owned.run howner h
  refine ⟨hfit.coherent, Process.perIsolate_run howner h, fun i f addr ht => ?_, fun hempty => ?_⟩
  · rcases (hfit.coherent i).wrapInstance f.wrapperTypeInfo f.creationContext addr with
      ⟨hm, hnone⟩ | ⟨hm, ft, templates, -, -, -, -, hsome⟩
    · exact iff_of_true hnone hm
    · have hne : M.wrapInstance f.wrapperTypeInfo f.creationContext addr (p.isolate i) ≠ none := by
        rw [hsome]
        exact Option.some_ne_none _
      have hm' : p.mode ≠ .kCreateNewObject := by
        rw [show p.mode = .kWrapExistingObject from hm]
        decide
      exact iff_of_false hne hm'
  · cases h with
    | start hi =>
      obtain ⟨isolate, context, -, rfl⟩ := hi
      exact absurd hempty Bool.false_ne_true
    | @step tr q _ a hr hs =>
      obtain ⟨hfit, -⟩ := Process.Owned.run howner hr
      obtain ⟨⟨i, addr, rfl⟩, hm⟩ := (hfit.moved hs.2.2).emptyInstance hs.2.2.1 hempty
      exact ⟨q, i, addr, rfl, hm⟩

omit [DecidableEq ι] in
/-- A run, one step longer. -/
theorem Hierarchy.separate_next [DecidableEq κ] {M : Hierarchy ι} {tr : List (Process ι κ × Move ι κ)}
    {p : Process ι κ} (a : Move ι κ) (h : (M.separate owner).Run tr p) (ht : ¬ a.Terminates) (hw : a.Within owner p)
    (hempty : p.emptyInstance = false) (he : a.Enabled p) (hx : (a.exec M p).isSome) :
    (M.separate owner).Run ((p, a) :: tr) ((a.exec M p).get hx) :=
  .step h ⟨ht, hw, hempty, he, (Option.some_get hx).symm⟩

namespace V8Event

/-- Event, and another class that inherits from none. -/
def roots : Embedding Bool where
  info t := { templateFunction := t, interfaceName := if t then "Other" else "Event", parentClass := none,
              internalFieldCount := 2, gcClassId := hcGarbageCollectedClassId }
  props _ := [⟨"type", some .typeGetter, none, dontDelete, Config.kOnPrototype⟩]
  methods _ := []
  strings := .standard
  interfaceName_injective := by decide
  templateFunction_self := by decide
  acyclic := by
    intro t h
    obtain ⟨u, hu, -⟩ := Relation.TransGen.head'_iff.mp h
    cases hu
  two_le_internalFieldCount := by decide

theorem roots_parent {owner : Bool → κ} (t u : Bool) (h : roots.family.parent t = some u) : owner u = owner t := by
  cases h

end V8Event

/-- Two `Wrap`s overlap, and one restores the mode before the other makes its instance. -/
theorem heaps_coherent_roots : ∃ tr p, (V8Event.roots.separate (id : Bool → Bool)).Run tr p ∧
    p.emptyInstance = true ∧ ((p.isolate true).objects 0).isSome ∧ (∀ i, Coherent V8Event.roots (p.isolate i)) ∧
    p.templates.PerIsolate ∧ ∃ q i addr, tr.head? = some (q, .step (.newInstance i addr)) ∧ q.mode = .kCreateNewObject := by
  have h₀ : (V8Event.roots.separate (id : Bool → Bool)).Run [] (.initial Bool.toNat fun _ => 0) :=
    .start ⟨_, _, by decide, rfl⟩
  have h₁ := Hierarchy.separate_next (.step (.run true (.nativeNew true [97] 0))) h₀ id rfl rfl
    ⟨rfl, id, by decide, rfl⟩ (by decide)
  have h₂ := Hierarchy.separate_next (.step (.run false (.nativeNew false [98] 0))) h₁ id rfl rfl
    ⟨rfl, id, by decide, rfl⟩ (by decide)
  have h₃ := Hierarchy.separate_next (.step (.wrap true ⟨0, 0⟩ 0)) h₂ id trivial rfl ⟨rfl, _, rfl, rfl⟩ (by decide)
  have h₄ := Hierarchy.separate_next (.step (.wrap false ⟨0, 0⟩ 0)) h₃ id trivial rfl ⟨rfl, _, rfl, rfl⟩ (by decide)
  have h₅ := Hierarchy.separate_next (.step (.setMode true)) h₄ id trivial rfl trivial (by decide)
  have h₆ := Hierarchy.separate_next (.step (.newInstance true 1)) h₅ id trivial rfl rfl (by decide)
  have h₇ := Hierarchy.separate_next (.step (.associateWithWrapper true)) h₆ id trivial rfl trivial (by decide)
  have h₈ := Hierarchy.separate_next (.step (.setMode false)) h₇ id trivial rfl trivial (by decide)
  have h₉ := Hierarchy.separate_next (.step (.restoreMode true)) h₈ id trivial rfl trivial (by decide)
  have h₁₀ := Hierarchy.separate_next (.step (.newInstance false 1)) h₉ id trivial rfl rfl (by decide)
  obtain ⟨tr, p, hrun, hp, ho⟩ : ∃ tr p, (V8Event.roots.separate (id : Bool → Bool)).Run tr p ∧
      p.emptyInstance = true ∧ ((p.isolate true).objects 0).isSome := ⟨_, _, h₁₀, by decide, by decide⟩
  obtain ⟨hcoherent, hper, -, hempty⟩ := heaps_coherent V8Event.roots_parent hrun
  exact ⟨tr, p, hrun, hp, ho, hcoherent, hper, hempty hp⟩

end NativeObjects
