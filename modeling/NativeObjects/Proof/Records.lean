import NativeObjects.Lib.Ledger
import NativeObjects.Proof.Links
import NativeObjects.Proof.Frames

/-!
# What script reads of an event

The steps of a run say which native an object is the wrapper of (`Op.links`),
what bytes the native was constructed with (`Op.constructs`), and which time
stamps it was given (`Op.stamped`). Where native code deletes nothing, script
reads just this: an object names the native that it was linked with, whatever
was assigned to its properties and whatever happened to other events, also at
the same address (`reads_own_event`).
-/

namespace NativeObjects

open Lib (System latest)

variable {ι : Type} [Fintype ι] [DecidableEq ι] {M : Embedding ι}

/-! ## What the run has recorded -/

/-- An object names the native that it was linked with. -/
theorem latest_links {tr : List (State ι × Op ι)} {s : State ι} (h : M.system.Run tr s) {o : ObjectId}
    {obj : JSObject ι} {p : NativePtr} (ho : s.objects o = some obj) (hf : obj.fields[0]? = some (.native p)) :
    latest Op.links o tr = some p := by
  have hrun := h.latest Op.links (R := fun s w => Inv M s ∧
    ∀ o obj p, s.objects o = some obj → obj.fields[0]? = some (.native p) → w o = some p) ?_ ?_
  · exact hrun.2 o obj p ho hf
  · rintro s ⟨isolate, context, rfl⟩
    exact ⟨.initial isolate context, fun _ _ _ ho => absurd ho (by simp [State.initial])⟩
  · rintro s op s' w ⟨hi, hw⟩ hs
    refine ⟨hi.effect (hi.step hs), fun o obj p ho hf => ?_⟩
    show (op.links s o).or (w o) = some p
    rcases hi.object_cases hs ho with ho | ⟨rfl, hnew⟩
    · rw [op.links_of_lt (hi.coherent.objects o obj ho).1, Option.none_or]
      exact hw o obj p ho hf
    · rw [hnew.links p hf, Option.some_or]

/-- The type of a native is the C string that it was constructed with. -/
theorem latest_constructs {tr : List (State ι × Op ι)} {s : State ι} (h : M.system.Run tr s) {p : NativePtr}
    {n : Event ι} (hp : s.Live p n) :
    ∃ event, latest (Op.constructs M.strings) p tr = some event ∧ n.type = cString event ++ [0] := by
  have hrun := h.latest (Op.constructs M.strings) (R := fun s w => Inv M s ∧
    ∀ p n, s.Live p n → ∃ event, w p = some event ∧ n.type = cString event ++ [0]) ?_ ?_
  · exact hrun.2 p n hp
  · rintro s ⟨isolate, context, rfl⟩
    exact ⟨.initial isolate context, fun _ _ hp => absurd hp.1 (by simp [State.initial])⟩
  · rintro s op s' w ⟨hi, hw⟩ hs
    refine ⟨hi.effect (hi.step hs), fun p n' hp => ?_⟩
    show ∃ event, (op.constructs M.strings s p).or (w p) = some event ∧ _
    rcases hi.live_cases hs hp with ⟨n, hp, hkept, -⟩ | hmade
    · rw [op.constructs_of_lt M.strings (hi.coherent.births p n hp), Option.none_or, hkept.type]
      exact hw p n hp
    · obtain ⟨event, hevent, htype⟩ := hmade.type
      rw [hevent, Option.some_or]
      exact ⟨event, rfl, htype⟩

omit [Fintype ι] [DecidableEq ι] in
/-- Natives that were not made yet are given no time stamp. -/
theorem Op.stamped_of_le {s : State ι} (hi : ∀ p n, s.Live p n → p.birth < s.births) {op : Op ι}
    (he : op.Enabled s) {p : NativePtr} (h : s.births ≤ p.birth) : op.stamped s p = none := by
  cases op with
  | setTimeStamp this timeStamp =>
    obtain ⟨n, hn⟩ := he
    refine if_neg fun hp => absurd (hi this n hn) ?_
    rw [← hp]
    omega
  | _ => rfl

/-- The time stamp of a native is the last that it was given, 0 if it was given none. -/
theorem latest_stamped {tr : List (State ι × Op ι)} {s : State ι} (h : M.system.Run tr s) {p : NativePtr}
    {n : Event ι} (hp : s.Live p n) : n.timeStamp = (latest Op.stamped p tr).getD 0 := by
  have hrun := h.latest Op.stamped (R := fun s w => Inv M s ∧
    (∀ p n, s.Live p n → n.timeStamp = (w p).getD 0) ∧ ∀ p, s.births ≤ p.birth → w p = none) ?_ ?_
  · exact hrun.2.1 p n hp
  · rintro s ⟨isolate, context, rfl⟩
    exact ⟨.initial isolate context, fun _ _ hp => absurd hp.1 (by simp [State.initial]), fun _ _ => rfl⟩
  · rintro s op s' w ⟨hi, hw, hnone⟩ hs
    have he := hi.step hs
    refine ⟨hi.effect he, fun p n' hp => ?_, fun p hb => ?_⟩
    · show n'.timeStamp = ((op.stamped s p).or (w p)).getD 0
      rcases hi.live_cases hs hp with ⟨n, hp, -, hstamp⟩ | hmade
      · rw [hstamp, hw p n hp]
        cases op.stamped s p <;> rfl
      · rw [hmade.stamped, hnone p hmade.birth.ge, hmade.timeStamp]
        rfl
    · show (op.stamped s p).or (w p) = none
      have hb' : s.births ≤ p.birth := he.births_le.trans hb
      rw [Op.stamped_of_le hi.coherent.births hs.1 hb', hnone p hb', Option.none_or]

/-! ## What script reads -/

/-- What a script gets of the C string `event`. -/
def StringConversions.decode (V : StringConversions) (event : List UInt8) : JSValue :=
  match V.newFromUtf8 (cString event) with
  | some string => .string string
  | none => .undefined

omit [DecidableEq ι] in
/-- The getters of the type and the time stamp. -/
theorem Hierarchy.invoke_getters (M : Hierarchy ι) {s : State ι} {o : ObjectId} {p : NativePtr} {n : Event ι}
    {event : List UInt8} (ho : Config.toImpl o s = some (some p)) (hp : s.Live p n)
    (htype : n.type = cString event ++ [0]) (args : List JSValue) (addr : Addr) :
    M.invoke .typeGetter ⟨false, o, args⟩ addr s = some (.returned (M.strings.decode event), s) ∧
      M.invoke .timeStampGetter ⟨false, o, args⟩ addr s = some (.returned (.number n.timeStamp.toInt), s) := by
  have htypeGetter : V8EventInternal.typeGetter M.strings o s = some (M.strings.decode event) := by
    rw [V8EventInternal.typeGetter, getterOf_eq ho hp.native, Event.getType_eq htype]
    rfl
  have hstampGetter : V8EventInternal.timeStampGetter o s = some (.number n.timeStamp.toInt) := by
    rw [V8EventInternal.timeStampGetter, getterOf_eq ho hp.native]
    rfl
  constructor
  · rw [invoke, htypeGetter, Option.map_some]
  · rw [invoke, hstampGetter, Option.map_some]

variable (M) in
/-- In the state `s'`, reached by the steps `tr'` after `tr`, the getters on `o` give
the type that the native of `o` was constructed with, and the time stamp that native
code gave it last, 0 if it gave none. -/
def ReadsOwn (tr tr' : List (State ι × Op ι)) (s' : State ι) (o : ObjectId) : Prop :=
  ∃ p event, latest Op.links o tr = some p ∧ latest (Op.constructs M.strings) p tr = some event ∧
    ∀ args addr,
      M.invoke .typeGetter ⟨false, o, args⟩ addr s' = some (.returned (M.strings.decode event), s') ∧
      M.invoke .timeStampGetter ⟨false, o, args⟩ addr s' =
        some (.returned (.number ((latest Op.stamped p (tr' ++ tr)).getD 0).toInt), s')

/-- Where native code deletes nothing: an object that script reaches, and reaches
still after any continuation of the run, gives what was recorded of its own native. -/
theorem reads_own_event {tr tr' : List (State ι × Op ι)} {s s' : State ι} (h : M.system.Run tr s)
    (hop : ∀ x ∈ tr, x.2.Spares) (h' : M.system.Path s tr' s') (hop' : ∀ x ∈ tr', x.2.Spares) {o : ObjectId}
    (ho : o ∈ s.reached) (ho' : o ∈ s'.reached) : ReadsOwn M tr tr' s' o := by
  obtain ⟨hi, hlive⟩ := FieldsLive.run h hop
  obtain ⟨hi', hlive'⟩ := FieldsLive.run (h.append h') (List.forall_mem_append.mpr ⟨hop', hop⟩)
  have hcont := Continues.path hi h'
  -- the object is as it was
  obtain ⟨obj, p, hobj', hf⟩ := hi'.reached_field ho'
  have hlt : o < s.nextObject := (hi.returned o (hi.reached o ho).1).1
  have hobj := hcont.object o obj hobj' hlt
  obtain ⟨n, hp⟩ := hlive o obj p trivial hobj hf
  obtain ⟨n', hp'⟩ := hlive' o obj p trivial hobj' hf
  obtain ⟨event, hevent, htype⟩ := latest_constructs h hp
  have htype' : n'.type = cString event ++ [0] := (hcont.kept hi hp hp').type.trans htype
  refine ⟨p, event, latest_links h hobj hf, hevent, fun args addr => ?_⟩
  rw [← latest_stamped (h.append h') hp']
  exact M.invoke_getters (Config.toImpl_eq hobj' hf) hp' htype' args addr

/-- Native code sets the time stamp of an event, and script assigns 43 to it; another
event is made and collected, and the address of its native is used again. -/
theorem reads_own_event_assigned : ∃ tr s tr' s', (V8Event.embedding .standard).system.Run tr s ∧
    (V8Event.embedding .standard).system.Path s tr' s' ∧ s'.reached = [0] ∧ s'.births = 3 ∧
    ReadsOwn (V8Event.embedding .standard) tr tr' s' 0 := by
  have h₀ : (V8Event.embedding .standard).system.Run [] (.initial 0 0) := .start ⟨0, 0, rfl⟩
  have h₁ := Hierarchy.run_next (.interfaceTemplate .event) h₀ trivial (by decide)
  have h₂ := Hierarchy.run_next (.scriptNew ⟨0, 0⟩ [.string ⟨[97], by decide⟩] 0) h₁ ⟨⟨"Event", by decide⟩, rfl⟩
    (by decide)
  let getter : FunctionValue V8Event.EventType TemplateId :=
    { callback := some .timeStampGetter, signature := some 0, length := 0, prototypeRemoved := true,
      acceptAnyReceiver := true }
  let setter : FunctionValue V8Event.EventType TemplateId :=
    { callback := none, signature := some 0, length := 1, prototypeRemoved := true, acceptAnyReceiver := true }
  have k₁ := Hierarchy.path_next (.setTimeStamp ⟨0, 0⟩ 7) h₂.rest ⟨_, rfl, rfl⟩ (by decide)
  have k₂ := Hierarchy.path_next (.scriptCall 0 .onPrototype setter 0 [.number 43] 1) k₁
    ⟨⟨"Event", by decide⟩, ⟨_, rfl, .accessor "timeStamp" getter setter V8Event.dontDelete, by decide, by decide⟩,
      by decide, rfl⟩ (by decide)
  have k₃ := Hierarchy.path_next (.scriptNew ⟨0, 0⟩ [.string ⟨[98], by decide⟩] 1) k₂ ⟨⟨"Event", by decide⟩, rfl⟩
    (by decide)
  have k₄ := Hierarchy.path_next (.drop 1) k₃ (show 1 ∈ _ by decide) (by decide)
  have k₅ := Hierarchy.path_next (.collect 1) k₄ ((Inv.run (h₂.append k₄)).collectable (by decide) (by decide))
    (by decide)
  have k₆ := Hierarchy.path_next (.nativeNew .event [99] 1) k₅
    ⟨by decide, show State.natives _ 1 = none by decide⟩ (by decide)
  exact ⟨_, _, _, _, h₂, k₆, by decide, by decide,
    reads_own_event h₂ (by simp [Op.Spares]) k₆ (by simp [Op.Spares]) (by decide) (by decide)⟩

end NativeObjects
