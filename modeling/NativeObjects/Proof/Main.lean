import NativeObjects.Model.Main
import NativeObjects.Proof.Progress
import NativeObjects.Proof.Records

/-!
# What the scripts of main.cpp read

`nativeFactory` is three operations of a program (`nativeFactory_steps`), so that the
program of `main.cpp` is one that deletes no native and assigns no target. What its
scripts read is an invariant of the abstract model (`World.Reads`): an object reads as
it was made, by `new` or by `nativeFactory` (`script_reads`).
-/

namespace NativeObjects

open Lib (System latest)

open V8Event (EventType)

/-! ## What an object is to read as -/

/-- `"factory"`, as script reads it. -/
def Main.factoryType : JSString := ⟨Lib.Utf.utf16 "factory".toList, by decide⟩

theorem StringConversions.decode_cString (V : StringConversions) (event : List UInt8) :
    V.decode (cString event) = V.decode event := by
  rw [decode, cString_cString]
  rfl

theorem StringConversions.decode_factory (V : StringConversions) : V.decode Main.factory = .string Main.factoryType := by
  have hc : cString Main.factory = Lib.Utf.utf8 "factory".toList := by decide
  rw [decode, hc, V.newFromUtf8_utf8 Main.factoryType _ rfl]

/-- The type and the time stamp that the object made by a step is to read as. -/
def Main.Step.made (V : StringConversions) (s : State EventType) (a : Main.Step) (o : ObjectId) :
    Option (JSValue × BitVec 32) :=
  match a with
  | .run (.scriptNew _ args _) =>
    if o = s.nextObject ∧ (args.getD 0 .undefined).isString then
      some (V.decode (V.utf8ValueOf (args.getD 0 .undefined)), 0)
    else none
  | .nativeFactory tvSec _ _ => if o = s.nextObject then some (.string Main.factoryType, tvSec) else none
  | .run _ => none

theorem Main.Step.made_of_lt (V : StringConversions) {s : State EventType} (a : Main.Step) {o : ObjectId}
    (h : o < s.nextObject) : a.made V s o = none := by
  cases a with
  | nativeFactory tvSec addr addr' => exact if_neg (Nat.ne_of_lt h)
  | run op =>
    cases op with
    | scriptNew f args addr => exact if_neg fun hc => absurd hc.1 (Nat.ne_of_lt h)
    | _ => rfl

/-! ## Events that read as they were made -/

/-- Every event has a wrapper. Objects name events, that name them, have no targets and
read as `made` says. -/
structure World.Reads (V : StringConversions) (w : World EventType)
    (made : ObjectId → Option (JSValue × BitVec 32)) : Prop where
  events : ∀ b n, w.events b = some n → b < w.births ∧ n.wrapper ≠ none
  objects : ∀ o obj, w.objects o = some obj → o < w.nextObject ∧ ∀ b, obj.native = some b →
    ∃ n, w.events b = some n ∧ n.wrapper = some o ∧ n.target = none ∧ n.currentTarget = none ∧
      made o = some (V.decode n.type, n.timeStamp)

namespace World.Reads

variable {V : StringConversions} {w w' : World EventType} {made made' : ObjectId → Option (JSValue × BitVec 32)}

theorem frame (h : w.Reads V made) (he : w'.events = w.events) (hb : w'.births = w.births)
    (ho : w'.objects = w.objects) (hn : w'.nextObject = w.nextObject) : w'.Reads V made := by
  refine ⟨fun b n hev => ?_, fun o obj hobj => ?_⟩
  · rw [hb]
    exact h.events b n (he ▸ hev)
  · rw [hn, he]
    exact h.objects o obj (ho ▸ hobj)

/-- The objects that were there read as before. -/
theorem congr (h : w.Reads V made) (hm : ∀ o, o < w.nextObject → made' o = made o) : w.Reads V made' := by
  refine ⟨h.events, fun o obj ho => ?_⟩
  obtain ⟨hlt, hobj⟩ := h.objects o obj ho
  refine ⟨hlt, fun b hb => ?_⟩
  rw [hm o hlt]
  exact hobj b hb

/-- An object that names no event was made. -/
theorem blank (h : w.Reads V made) {f : JSFunction} : (w.instantiate f none).Reads V made := by
  refine ⟨h.events, fun o obj ho => ?_⟩
  by_cases hoo : o = w.nextObject
  · subst hoo
    cases (Function.update_self ..).symm.trans ho
    exact ⟨Nat.lt_succ_self _, fun b hb => absurd hb (by simp)⟩
  · obtain ⟨hlt, hobj⟩ := h.objects o obj ((Function.update_of_ne hoo ..).symm.trans ho)
    exact ⟨Nat.lt_succ_of_lt hlt, hobj⟩

/-- An event was made, with its wrapper. -/
theorem create (h : w.Reads V made) {n : EventView EventType} {obj : ObjectView}
    (he : w'.events = Function.update w.events w.births (some n)) (hb : w'.births = w.births + 1)
    (ho : w'.objects = Function.update w.objects w.nextObject (some obj)) (hn : w'.nextObject = w.nextObject + 1)
    (hobj : obj.native = some w.births) (hw : n.wrapper = some w.nextObject) (ht : n.target = none)
    (hct : n.currentTarget = none) (hnew : made' w.nextObject = some (V.decode n.type, n.timeStamp))
    (hold : ∀ o, o < w.nextObject → made' o = made o) : w'.Reads V made' := by
  refine ⟨fun b m hev => ?_, fun o obj' ho' => ?_⟩
  · rw [hb]
    by_cases hbb : b = w.births
    · rw [he, hbb, Function.update_self, Option.some.injEq] at hev
      rw [hbb, ← hev, hw]
      exact ⟨Nat.lt_succ_self _, Option.some_ne_none _⟩
    · rw [he, Function.update_of_ne hbb] at hev
      exact ⟨Nat.lt_succ_of_lt (h.events b m hev).1, (h.events b m hev).2⟩
  · rw [hn, he]
    by_cases hoo : o = w.nextObject
    · rw [ho, hoo, Function.update_self, Option.some.injEq] at ho'
      subst ho' hoo
      refine ⟨Nat.lt_succ_self _, fun b hb => ?_⟩
      cases hobj.symm.trans hb
      exact ⟨n, Function.update_self .., hw, ht, hct, hnew⟩
    · rw [ho, Function.update_of_ne hoo] at ho'
      obtain ⟨hlt, hobj'⟩ := h.objects o obj' ho'
      refine ⟨Nat.lt_succ_of_lt hlt, fun b hb => ?_⟩
      obtain ⟨m, hm, hrest⟩ := hobj' b hb
      have hbb : b ≠ w.births := Nat.ne_of_lt (h.events b m hm).1
      rw [Function.update_of_ne hbb, hold o hlt]
      exact ⟨m, hm, hrest⟩

/-- Script gets no object from a call. -/
theorem answer_ne_object (h : w.Reads V made) (f : FunctionValue EventType TemplateId) (receiver o : ObjectId) :
    w.answer V f receiver ≠ some (some (.returned (.object o))) := by
  intro hans
  simp only [World.answer, Option.bind_eq_bind, Option.bind_eq_some_iff] at hans
  obtain ⟨obj, hobj, hans⟩ := hans
  split at hans
  case isFalse => cases hans
  case isTrue =>
    cases hc : f.callback with
    | none =>
      rw [hc] at hans
      cases hans
    | some callback =>
      rw [hc] at hans
      obtain ⟨outcome, hinv, heq⟩ := Option.bind_eq_some_iff.mp hans
      cases heq
      have hread : ∀ b n target, obj.native = some b → w.events b = some n →
          target = n.target ∨ target = n.currentTarget → w.readTarget target = some .null := by
        intro b n target hb hev ht
        obtain ⟨m, hm, -, htarget, hcurrent, -⟩ := (h.objects receiver obj hobj).2 b hb
        cases hm.symm.trans hev
        have hnone : target = none := by
          rcases ht with rfl | rfl
          · exact htarget
          · exact hcurrent
        rw [hnone, World.readTarget]
      cases callback with
      | constructorCallback t => cases hinv
      | typeGetter =>
        simp only [World.invoke, Option.bind_eq_bind, Option.bind_eq_some_iff] at hinv
        obtain ⟨b, -, n, -, hv⟩ := hinv
        cases hV : V.newFromUtf8 n.type with
        | none =>
          rw [hV] at hv
          cases hv
        | some string =>
          rw [hV] at hv
          cases hv
      | timeStampGetter =>
        simp only [World.invoke, Option.bind_eq_bind, Option.bind_eq_some_iff] at hinv
        obtain ⟨b, -, n, -, hv⟩ := hinv
        cases hv
      | targetGetter =>
        simp only [World.invoke, Option.bind_eq_bind, Option.bind_eq_some_iff] at hinv
        obtain ⟨b, hb, n, hev, v, hv, heq⟩ := hinv
        cases hv.symm.trans (hread b n _ hb hev (.inl rfl))
        cases heq
      | currentTargetGetter =>
        simp only [World.invoke, Option.bind_eq_bind, Option.bind_eq_some_iff] at hinv
        obtain ⟨b, hb, n, hev, v, hv, heq⟩ := hinv
        cases hv.symm.trans (hread b n _ hb hev (.inr rfl))
        cases heq
      | preventDefault => cases hinv
      | other n => cases hinv

end World.Reads

/-! ## The steps of a program -/

variable {V : StringConversions} {s s' : State EventType} {w w' : World EventType}
  {made : ObjectId → Option (JSValue × BitVec 32)}

namespace World.Reads

/-- Operations of script and of the collector. -/
theorem script (h : w.Reads V made) (hn : w.nextObject = s.nextObject) {op : Op EventType} (hop : Main.ByScript op)
    (hx : op.action.exec (V8Event.embedding V).toHierarchy w = some w') :
    w'.Reads V fun o => ((Main.Step.run op).made V s o).or (made o) := by
  have hold : ∀ o, o < w.nextObject → ((Main.Step.run op).made V s o).or (made o) = made o := by
    intro o ho
    rw [Main.Step.made_of_lt V _ (hn ▸ ho), Option.none_or]
  cases op with
  | scriptNew f args addr =>
    obtain ⟨t, -, hx⟩ := Option.bind_eq_some_iff.mp hx
    cases ha : args.getD 0 .undefined with
    | string v =>
      rw [ha] at hx
      cases hx
      refine h.create rfl rfl rfl rfl rfl rfl rfl rfl ?_ hold
      rw [Main.Step.made, if_pos ⟨hn, by rw [ha]; rfl⟩, Option.some_or, ha]
      exact congrArg (fun v => some (v, _)) (V.decode_cString _).symm
    | _ =>
      rw [ha] at hx
      cases hx
      refine h.blank.congr fun o _ => ?_
      rw [Main.Step.made, if_neg (fun hc => absurd hc.2 (by rw [ha]; exact Bool.false_ne_true)), Option.none_or]
  | scriptCall ft place f receiver args addr =>
    obtain ⟨r, hr, hx⟩ := Option.bind_eq_some_iff.mp hx
    have hw : w' = w := by
      cases r with
      | none => exact (Option.some.inj hx).symm
      | some outcome =>
        cases outcome with
        | rejected error => exact (Option.some.inj hx).symm
        | returned v =>
          cases v with
          | object o => exact absurd hr (h.answer_ne_object f receiver o)
          | _ => exact (Option.some.inj hx).symm
    exact hw ▸ h.congr hold
  | drop o =>
    cases hx
    exact (h.congr hold).frame rfl rfl rfl rfl
  | collect o =>
    cases hx
    refine ⟨fun b n hb => h.events b n (Option.filter_eq_some_iff.mp hb).1, fun o' obj ho' => ?_⟩
    have hoo : o' ≠ o := by
      rintro rfl
      exact absurd ((Function.update_self ..).symm.trans ho') (by simp)
    obtain ⟨hlt, hobj⟩ := h.objects o' obj ((Function.update_of_ne hoo ..).symm.trans ho')
    refine ⟨hlt, fun b hb => ?_⟩
    obtain ⟨n, hev, hw, hrest⟩ := hobj b hb
    refine ⟨n, Option.filter_eq_some_iff.mpr ⟨hev, decide_eq_true ?_⟩, hw, hrest⟩
    rw [hw]
    exact fun hsome => hoo (Option.some.inj hsome)
  | _ => exact hop.elim

/-- The three operations of `nativeFactory`. -/
theorem nativeFactory (h : w.Reads V made) (hn : w.nextObject = s.nextObject) {tvSec : BitVec 32}
    {addr addr' : Addr} {w₁ w₂ : World EventType}
    (h₁ : (Action.nativeNew .event Main.factory).exec (V8Event.embedding V).toHierarchy w = some w₁)
    (h₂ : (Action.setTimeStamp w.births tvSec).exec (V8Event.embedding V).toHierarchy w₁ = some w₂)
    (h₃ : (Action.wrap w.births).exec (V8Event.embedding V).toHierarchy w₂ = some w') :
    w'.Reads V fun o => ((Main.Step.nativeFactory tvSec addr addr').made V s o).or (made o) := by
  cases h₁
  obtain ⟨n, hev, h₂⟩ := Option.bind_eq_some_iff.mp h₂
  cases (Function.update_self ..).symm.trans hev
  cases h₂
  obtain ⟨n, hev, h₃⟩ := Option.bind_eq_some_iff.mp h₃
  cases (Function.update_self ..).symm.trans hev
  obtain ⟨⟨ft, templates⟩, -, h₃⟩ := Option.bind_eq_some_iff.mp h₃
  cases h₃
  refine h.create ((Function.update_idem ..).trans (Function.update_idem ..)) rfl rfl rfl rfl rfl rfl rfl ?_
    fun o ho => ?_
  · rw [Main.Step.made, if_pos hn, Option.some_or]
    exact congrArg (fun v => some (v, _)) ((V.decode_cString _).trans V.decode_factory).symm
  · rw [Main.Step.made_of_lt V _ (hn ▸ ho), Option.none_or]

/-- The native that an object names. -/
theorem live (h : w.Reads V made) (hc : Coherent (V8Event.embedding V) s) (ha : Abstracts s w) {o : ObjectId}
    {obj : JSObject EventType} {p : NativePtr} (ho : s.objects o = some obj) (hf : obj.fields[0]? = some (.native p)) :
    ∃ n, s.Live p n ∧ n.target = none ∧ n.currentTarget = none ∧ made o = some (V.decode n.getType, n.timeStamp) := by
  have hview : w.objects o = some obj.view := by rw [ha.objects, ho, Option.map_some]
  have hb : obj.view.native = some p.birth := by
    rw [JSObject.view, hf, Option.bind_some]
    rfl
  obtain ⟨m, hm, hw, ht, hct, hmade⟩ := (h.objects o _ hview).2 _ hb
  obtain ⟨q, n, hq, -, rfl⟩ := (ha.events _ _).mp hm
  obtain ⟨c, -, hl⟩ := hc.linked_of_getWrapper hq hw
  obtain ⟨obj', ho', hf', -⟩ := hl.object
  cases ho.symm.trans ho'
  cases hf.symm.trans hf'
  exact ⟨n, hq, Option.map_eq_none_iff.mp ht, Option.map_eq_none_iff.mp hct, hmade⟩

end World.Reads

namespace Main

/-- `nativeFactory` makes an event, sets its time stamp and wraps it. -/
theorem nativeFactory_steps (hi : Inv (V8Event.embedding V) s) {tvSec : BitVec 32} {addr addr' : Addr}
    (he : (Step.nativeFactory tvSec addr addr').Enabled s) :
    ∃ s₁ s₂ s', (V8Event.embedding V).system.step s (.nativeNew .event factory addr) s₁ ∧
      (V8Event.embedding V).system.step s₁ (.setTimeStamp ⟨addr, s.births⟩ tvSec) s₂ ∧
      (V8Event.embedding V).system.step s₂ (.wrap ⟨addr, s.births⟩ s.context addr') s' ∧
      (Step.nativeFactory tvSec addr addr').exec V s = some s' := by
  obtain ⟨hfree, hfree', hne⟩ := he
  let p : NativePtr := ⟨addr, s.births⟩
  let n : Event EventType := Event.fresh .event factory s.births
  have hlen : strlen factory + 1 < 2 ^ 31 := by decide
  have hcreate : Event.create .event factory addr s = some (p, s.allocate p n) := Event.create_eq hlen hfree
  have h₁ : (V8Event.embedding V).system.step s (.nativeNew .event factory addr) (s.allocate p n) := by
    refine ⟨⟨hlen, hfree⟩, ?_⟩
    rw [Op.exec, hcreate]
    rfl
  have hp : (s.allocate p n).Live p n := State.live_self_allocate hfree rfl
  have h₂ : (V8Event.embedding V).system.step (s.allocate p n) (.setTimeStamp p tvSec)
      ((s.allocate p n).setNative p { n with timeStamp := tvSec }) := by
    refine ⟨⟨n, hp⟩, ?_⟩
    rw [Op.exec, hp.native]
    rfl
  have hi₁ := hi.effect (hi.step h₁)
  have hi₂ := hi₁.effect (hi₁.step h₂)
  have hp₂ : ((s.allocate p n).setNative p { n with timeStamp := tvSec }).Live p { n with timeStamp := tvSec } :=
    (State.live_replace { n with timeStamp := tvSec } hp rfl rfl).mpr (.inl ⟨rfl, rfl⟩)
  have hen : (Op.wrap p s.context addr').Enabled ((s.allocate p n).setNative p { n with timeStamp := tvSec }) := by
    refine ⟨⟨_, hp₂⟩, ?_⟩
    show Function.update (Function.update s.natives addr _) addr _ addr' = none
    rw [Function.update_idem, Function.update_of_ne hne]
    exact hfree'
  obtain ⟨s', hx⟩ := Option.isSome_iff_exists.mp (hi₂.exec_isSome hen fun _ _ _ _ _ _ hop => by
    cases hop)
  refine ⟨_, _, s', h₁, h₂, ⟨hen, hx⟩, ?_⟩
  rw [Step.exec, Main.nativeFactory, hcreate]
  simp only [Option.bind_eq_bind, Option.bind_some, hp.native]
  exact hx

variable (V) in
/-- What holds between the steps of the scripts. -/
structure Served (s : State EventType) (made : ObjectId → Option (JSValue × BitVec 32)) : Prop where
  run : ∃ tr, (V8Event.embedding V).system.Run tr s ∧ ∀ x ∈ tr, x.2.Spares
  world : ∃ w, Abstracts s w ∧ w.Reads V made

namespace Served

theorem inv (h : Served V s made) : Inv (V8Event.embedding V) s := by
  obtain ⟨tr, hr, -⟩ := h.run
  exact .run hr

/-- The scripts dereference live natives. -/
theorem readsLive (h : Served V s made) {op : Op EventType} (he : op.Enabled s) : op.ReadsLive s := by
  obtain ⟨w, ha, hw⟩ := h.world
  cases op with
  | scriptCall ft place f receiver args addr =>
    obtain ⟨obj, p, ho, hf⟩ := h.inv.reached_field he.2.2.1
    obtain ⟨n, hp, ht, hct, -⟩ := hw.live h.inv.coherent ha ho hf
    refine Op.readsLive_of_live (Config.toImpl_eq ho hf) hp (fun callback q _ hq => ?_) args addr
    cases callback with
    | targetGetter => exact absurd (ht.symm.trans hq) (by simp)
    | currentTargetGetter => exact absurd (hct.symm.trans hq) (by simp)
    | _ => exact hq.elim
  | _ => trivial

/-- No step fails. -/
theorem exec_isSome (h : Served V s made) {a : Step} (he : a.Enabled s) : (a.exec V s).isSome := by
  cases a with
  | run op =>
    show (op.exec (V8Event.embedding V).toHierarchy s).isSome
    rw [Option.isSome_iff_ne_none, ne_eq, h.inv.exec_eq_none_iff he.2]
    exact Op.not_readsFreed_of_readsLive (h.readsLive he.2)
  | nativeFactory tvSec addr addr' =>
    obtain ⟨-, -, s', -, -, -, hx⟩ := nativeFactory_steps h.inv he
    rw [hx]
    rfl

theorem initial {isolate : IsolateId} {context : ContextId} (hx : runV8Stuff V isolate context = some s) :
    Served V s fun _ => none := by
  have hs : (V8Event.embedding V).system.step (.initial isolate context) (.interfaceTemplate .event) s := ⟨trivial, hx⟩
  have h₀ : (V8Event.embedding V).system.Run [] (.initial isolate context) := .start ⟨isolate, context, rfl⟩
  obtain ⟨w', hx', ha⟩ := (Abstracts.initial isolate context).exec (Inv.run h₀) (by trivial) hs
  refine ⟨⟨_, h₀.step hs, List.forall_mem_singleton.mpr trivial⟩, w', ha, ?_⟩
  rw [Op.action, Action.exec] at hx'
  obtain ⟨⟨ft, templates⟩, -, hx'⟩ := Option.bind_eq_some_iff.mp hx'
  cases hx'
  exact ⟨fun b n hb => (Option.some_ne_none n hb.symm).elim, fun o obj ho => (Option.some_ne_none obj ho.symm).elim⟩

theorem step {a : Step} (h : Served V s made) (hs : (program V).step s a s') :
    Served V s' fun o => (a.made V s o).or (made o) := by
  obtain ⟨tr, hr, hop⟩ := h.run
  obtain ⟨w, ha, hw⟩ := h.world
  obtain ⟨he, hx⟩ := hs
  have hi := h.inv
  cases a with
  | run op =>
    have hst : (V8Event.embedding V).system.step s op s' := ⟨he.2, hx⟩
    obtain ⟨w', hx', ha'⟩ := ha.exec hi (h.readsLive he.2) hst
    refine ⟨⟨_, hr.step hst, List.forall_mem_cons.mpr ⟨?_, hop⟩⟩, w', ha', hw.script ha.nextObject he.1 hx'⟩
    cases op with
    | destroy p => exact he.1.elim
    | _ => trivial
  | nativeFactory tvSec addr addr' =>
    obtain ⟨s₁, s₂, t, h₁, h₂, h₃, ht⟩ := nativeFactory_steps hi he
    cases ht.symm.trans hx
    have hi₁ := hi.effect (hi.step h₁)
    have hi₂ := hi₁.effect (hi₁.step h₂)
    obtain ⟨w₁, hw₁, ha₁⟩ := ha.exec hi (by trivial) h₁
    obtain ⟨w₂, hw₂, ha₂⟩ := ha₁.exec hi₁ (by trivial) h₂
    obtain ⟨w₃, hw₃, ha₃⟩ := ha₂.exec hi₂ (by trivial) h₃
    have hw₂' : (Action.setTimeStamp w.births tvSec).exec (V8Event.embedding V).toHierarchy w₁ = some w₂ := by
      rw [ha.births]
      exact hw₂
    have hw₃' : (Action.wrap w.births).exec (V8Event.embedding V).toHierarchy w₂ = some w₃ := by
      rw [ha.births]
      exact hw₃
    refine ⟨⟨_, ((hr.step h₁).step h₂).step h₃, ?_⟩, w₃, ha₃, hw.nativeFactory ha.nextObject hw₁ hw₂' hw₃'⟩
    simp only [List.forall_mem_cons]
    exact ⟨trivial, trivial, trivial, hop⟩

theorem of_run {tr : List (State EventType × Step)} (h : (program V).Run tr s) :
    Served V s fun o => latest (Step.made V) o tr :=
  h.latest (Step.made V) (fun _ ⟨_, _, hx⟩ => .initial hx) fun _ _ _ _ hs hst => hs.step hst

end Served

variable (V) in
/-- The getters on `o` give the type and the time stamp, and no targets. -/
def ReadsAs (s : State EventType) (o : ObjectId) (type : JSValue) (timeStamp : BitVec 32) : Prop :=
  ∀ (callback : FunctionCallback EventType) (args : List JSValue) (addr : Addr) (v : JSValue),
    (callback, v) ∈ [(.typeGetter, type), (.timeStampGetter, .number timeStamp.toInt), (.targetGetter, .null),
      (.currentTargetGetter, .null)] →
    (V8Event.embedding V).invoke callback ⟨false, o, args⟩ addr s = some (.returned v, s)

theorem readsAs_of_live {o : ObjectId} {obj : JSObject EventType} {p : NativePtr} {n : Event EventType}
    (ho : s.objects o = some obj) (hf : obj.fields[0]? = some (.native p)) (hp : s.Live p n) (ht : n.target = none)
    (hct : n.currentTarget = none) : ReadsAs V s o (V.decode n.getType) n.timeStamp := by
  have hget : ∀ read : Event EventType → State EventType → Option JSValue, getterOf read o s = read n s :=
    fun read => getterOf_eq (Config.toImpl_eq ho hf) hp.native
  have htype : V8EventInternal.typeGetter V o s = some (V.decode n.getType) :=
    (hget _).trans (congrArg some (V.decode_cString n.type).symm)
  intro callback args addr v hv
  simp only [List.mem_cons, Prod.mk.injEq, List.not_mem_nil, or_false] at hv
  rcases hv with ⟨rfl, rfl⟩ | ⟨rfl, rfl⟩ | ⟨rfl, rfl⟩ | ⟨rfl, rfl⟩
  · exact congrArg (Option.map fun v => (Outcome.returned v, s)) htype
  · rw [Hierarchy.invoke, V8EventInternal.timeStampGetter, hget]
    rfl
  · rw [Hierarchy.invoke, V8EventInternal.targetGetter, hget, ht]
    rfl
  · rw [Hierarchy.invoke, V8EventInternal.currentTargetGetter, hget, hct]
    rfl

/-- What the scripts do is done by a program that deletes no native, and never fails.
Every object that script reaches reads as it was made: one made by `new` has the type
that it was given and the time stamp 0, one made by `nativeFactory` has the type
`factory` and the time of the call, and neither has targets. -/
theorem script_reads {tr : List (State EventType × Step)} {s : State EventType} (h : (program V).Run tr s) :
    (∃ tr', (V8Event.embedding V).system.Run tr' s ∧ ∀ x ∈ tr', x.2.Spares) ∧
      (∀ a : Step, a.Enabled s → (a.exec V s).isSome) ∧
      ∀ o ∈ s.reached, ∃ type timeStamp, latest (Step.made V) o tr = some (type, timeStamp) ∧
        ReadsAs V s o type timeStamp := by
  have hserved := Served.of_run h
  refine ⟨hserved.run, fun a => hserved.exec_isSome, fun o ho => ?_⟩
  obtain ⟨w, ha, hw⟩ := hserved.world
  obtain ⟨obj, p, hobj, hf⟩ := hserved.inv.reached_field ho
  obtain ⟨n, hp, ht, hct, hmade⟩ := hw.live hserved.inv.coherent ha hobj hf
  exact ⟨_, _, hmade, readsAs_of_live hobj hf hp ht hct⟩

/-- The next step of the scripts. -/
theorem program_next {tr : List (State EventType × Step)} {s : State EventType} (a : Step)
    (h : (program V).Run tr s) (he : a.Enabled s) (hx : (a.exec V s).isSome) :
    (program V).Run ((s, a) :: tr) ((a.exec V s).get hx) :=
  .step h ⟨he, (Option.some_get hx).symm⟩

/-- Script makes an event, drops it, and calls `nativeFactory` at the time 7. -/
theorem script_reads_factory : ∃ tr s, (program .standard).Run tr s ∧ s.reached = [1] ∧
    latest (Step.made .standard) 1 tr = some (.string factoryType, 7) ∧
    ∃ type timeStamp, latest (Step.made .standard) 1 tr = some (type, timeStamp) ∧
      ReadsAs .standard s 1 type timeStamp := by
  have h₀ : (program .standard).Run [] ((runV8Stuff .standard 0 0).get (by decide)) :=
    .start ⟨0, 0, (Option.some_get _).symm⟩
  have h₁ := program_next (.run (.scriptNew ⟨0, 0⟩ [.string ⟨[97], by decide⟩] 0)) h₀
    ⟨trivial, ⟨"Event", by decide⟩, rfl⟩ (by decide)
  have h₂ := program_next (.run (.drop 0)) h₁ ⟨trivial, show 0 ∈ _ by decide⟩ (by decide)
  have h₃ := program_next (.nativeFactory 7 1 2) h₂ ⟨rfl, rfl, by decide⟩ (by decide)
  exact ⟨_, _, h₃, by decide, by decide, (script_reads h₃).2.2 1 (by decide)⟩

end Main

end NativeObjects
