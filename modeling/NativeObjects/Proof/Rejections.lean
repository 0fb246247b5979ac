import NativeObjects.Proof.Effect

/-!
# What the constructor callback rejects

The callback compares `kArgsLength`, a constant, with 1, where it means the
number of arguments. It rejects the same calls as a callback that does
(`Hierarchy.constructorCallback_eq_byLength`), since an argument that is not
there is undefined; and a call that it rejects changes nothing
(`constructor_rejects_exactly`).
-/

namespace NativeObjects

variable {ι : Type}

/-- What `V8Event needs a type string argument.` asks of the arguments. -/
def CallInfo.TypeStringFirst (ci : CallInfo) : Prop := ∃ v, ci.args.head? = some (.string v)

/-- The calls that are to be rejected. -/
def CallInfo.Rejected (ci : CallInfo) (mode : ConstructorMode) : Prop :=
  ci.isConstructCall = false ∨ mode = .kCreateNewObject ∧ ¬ ci.TypeStringFirst

theorem CallInfo.isString_arg_iff (ci : CallInfo) : (ci.arg 0).isString = true ↔ ci.TypeStringFirst := by
  unfold arg TypeStringFirst
  cases ci.args with
  | nil => simp [JSValue.isString]
  | cons v args => cases v <;> simp [JSValue.isString]

theorem JSValue.exists_of_isString {v : JSValue} (h : v.isString = true) : ∃ string, v = .string string := by
  cases v with
  | string string => exact ⟨string, rfl⟩
  | _ => exact absurd h (by simp [isString])

namespace Hierarchy

variable [Fintype ι] (M : Hierarchy ι)

/-- `constructorCallback` with the guard that it was to have, on the number of arguments of the call. -/
def constructorCallbackByLength (t : ι) (ci : CallInfo) (addr : Addr) (s : State ι) : Option (Outcome × State ι) :=
  if ¬ ci.isConstructCall then
    some (Config.throw s "Must be constructor", s)
  else if s.mode = .kWrapExistingObject then
    some (.returned (.object ci.holder), s)
  else if ci.args.length < 1 ∨ ¬ (ci.arg 0).isString then
    some (Config.throw s "V8Event needs a type string argument.", s)
  else do
    let utf := M.strings.utf8ValueOf (ci.arg 0) ++ [0]
    let (event, s) ← Event.create t utf addr s
    let wrapper := ci.holder
    let (_, s) ← Wrappable.associateWithWrapper M.info event t (some wrapper) s
    return (.returned (.object wrapper), s)

/-- Out of range, an argument is undefined, and so no string. -/
theorem guard_iff (ci : CallInfo) :
    kArgsLength < 1 ∨ ¬ (ci.arg 0).isString ↔ ci.args.length < 1 ∨ ¬ (ci.arg 0).isString := by
  cases h : ci.args with
  | nil => simp [CallInfo.arg, h, JSValue.isString]
  | cons v args => simp [kArgsLength]

theorem constructorCallback_eq_byLength (t : ι) (ci : CallInfo) (addr : Addr) (s : State ι) :
    M.constructorCallback t ci addr s = M.constructorCallbackByLength t ci addr s := by
  unfold constructorCallback constructorCallbackByLength
  simp only [guard_iff ci]

/-- What V8 passes to the callback of the class `t`: the holder of a construct
call is an instance of the class. -/
def Passes (t : ι) (ci : CallInfo) (s : State ι) : Prop :=
  ci.isConstructCall = true → ∃ obj, s.objects ci.holder = some obj ∧
    obj.fields.length = (M.info t).internalFieldCount

/-- A construct call passes what is asked for. -/
theorem passes_construct (t : ι) (f : JSFunction) (args : List JSValue) (s : State ι) :
    M.Passes t { isConstructCall := true, holder := s.nextObject, args := args } (s.newObject (M.blank f t)).2 :=
  fun _ => ⟨M.blank f t, Function.update_self .., List.length_replicate ..⟩

end Hierarchy

/-- From `s` to `s'`, one native was allocated, of the class `t` at `addr`, and
linked with the object `o`. Nothing else changed. -/
structure AllocatesOne (t : ι) (o : ObjectId) (addr : Addr) (s s' : State ι) : Prop where
  births : s'.births = s.births + 1
  native : ∃ ev, s'.Live ⟨addr, s.births⟩ ev ∧ ev.typeInfo = t ∧ Wrappable.getWrapper ev s' = some o
  field : Config.toImpl o s' = some (some ⟨addr, s.births⟩)
  natives : ∀ a, a ≠ addr → s'.natives a = s.natives a
  objects : ∀ o', o' ≠ o → s'.objects o' = s.objects o'
  cells : ∀ c, c ≠ s.nextCell → s'.cells c = s.cells c
  mode : s'.mode = s.mode

variable [Fintype ι] {M : Hierarchy ι}

theorem allocatesOne {t : ι} {v : JSString} {o : ObjectId} {obj : JSObject ι} {addr : Addr} {s : State ι}
    (hl : 2 ≤ obj.fields.length) :
    AllocatesOne t o addr s ((s.allocate ⟨addr, s.births⟩ (M.scripted t v s.births)).link M.info ⟨addr, s.births⟩
      (M.scripted t v s.births) t o obj) := by
  constructor
  case births => rfl
  case native =>
    refine ⟨{ M.scripted t v s.births with wrapper := some s.nextCell }, ⟨Function.update_self .., rfl⟩, rfl, ?_⟩
    show ((Function.update s.cells s.nextCell _ s.nextCell).map Cell.object) = some o
    rw [Function.update_self, Option.map_some]
  case field =>
    refine Config.toImpl_eq (Function.update_self ..) ?_
    rw [List.getElem?_set_ne (by decide), List.getElem?_set_self (by omega)]
  case natives =>
    intro a ha
    show Function.update (Function.update s.natives addr _) addr _ a = _
    rw [Function.update_of_ne ha, Function.update_of_ne ha]
  case objects => exact fun o' ho => Function.update_of_ne ho ..
  case cells => exact fun c hc => Function.update_of_ne hc ..
  case mode => rfl

/-- A call that is to be rejected ends in `Throw`, with the state as it was. -/
theorem Hierarchy.constructorCallback_rejected (t : ι) {ci : CallInfo} (addr : Addr) {s : State ι}
    (h : ci.Rejected s.mode) : ∃ message, M.constructorCallback t ci addr s = some (Config.throw s message, s) := by
  by_cases hc : ci.isConstructCall = true
  · obtain ⟨hm, hargs⟩ := h.resolve_left (by simp [hc])
    have ha : (ci.arg 0).isString = false := by
      rw [← Bool.not_eq_true, ci.isString_arg_iff]
      exact hargs
    exact ⟨_, constructorCallback_reject hc hm ha⟩
  · exact ⟨_, if_pos hc⟩

/-- Any other call gives the holder. -/
theorem Hierarchy.constructorCallback_accepted {t : ι} {ci : CallInfo} {addr : Addr} {s : State ι} (hfree : s.Free addr)
    (hci : M.Passes t ci s) (h : ¬ ci.Rejected s.mode) :
    ∃ s', M.constructorCallback t ci addr s = some (.returned (.object ci.holder), s') ∧
      (s.mode = .kWrapExistingObject → s' = s) ∧
      (s.mode = .kCreateNewObject → AllocatesOne t ci.holder addr s s') := by
  have hc : ci.isConstructCall = true := by
    rw [← Bool.not_eq_false]
    exact fun hc => h (.inl hc)
  cases hm : s.mode with
  | kWrapExistingObject => exact ⟨s, constructorCallback_wrap hc hm, fun _ => rfl, fun hm => absurd hm (by decide)⟩
  | kCreateNewObject =>
    have hargs : ci.TypeStringFirst := by
      by_contra hargs
      exact h (.inr ⟨hm, hargs⟩)
    obtain ⟨v, hv⟩ := JSValue.exists_of_isString (ci.isString_arg_iff.mpr hargs)
    obtain ⟨obj, ho, hlen⟩ := hci hc
    have hl : 2 ≤ obj.fields.length := hlen ▸ M.two_le_internalFieldCount t
    exact ⟨_, constructorCallback_create hc hm hv hfree ho hl, fun hm => absurd hm (by decide),
      fun _ => allocatesOne hl⟩

/-- In every state and either mode: a call of the constructor callback returns. It
is rejected exactly if it is no construct call, or no type string comes first
and the mode is to create objects; then nothing changes, and an `Error` is raised
unless execution is terminating. What is accepted gives the holder, in wrap mode
with nothing done, in create mode linked with the one native that was allocated. -/
theorem constructor_rejects_exactly (t : ι) (ci : CallInfo) (addr : Addr) (s : State ι) (hfree : s.Free addr)
    (hci : M.Passes t ci s) :
    M.constructorCallback t ci addr s = M.constructorCallbackByLength t ci addr s ∧
      ∃ outcome s', M.constructorCallback t ci addr s = some (outcome, s') ∧
        ((∃ error, outcome = .rejected error) ↔ ci.Rejected s.mode) ∧
        (∀ error, outcome = .rejected error → s' = s ∧ (error = none ↔ s.executionTerminating = true)) ∧
        (¬ ci.Rejected s.mode → outcome = .returned (.object ci.holder) ∧
          (s.mode = .kWrapExistingObject → s' = s) ∧
          (s.mode = .kCreateNewObject → AllocatesOne t ci.holder addr s s')) := by
  refine ⟨M.constructorCallback_eq_byLength t ci addr s, ?_⟩
  by_cases h : ci.Rejected s.mode
  · obtain ⟨message, heq⟩ := M.constructorCallback_rejected t addr h
    refine ⟨_, _, heq, by simp [h, Config.throw], fun error he => ⟨rfl, ?_⟩, fun hn => absurd h hn⟩
    rw [Config.throw, Outcome.rejected.injEq] at he
    rw [← he]
    simp
  · obtain ⟨s', heq, hwrap, hcreate⟩ := Hierarchy.constructorCallback_accepted hfree hci h
    exact ⟨_, _, heq, by simp [h], fun error he => absurd he (by simp), fun _ => ⟨rfl, hwrap, hcreate⟩⟩

/-- `new Event()` is rejected. -/
theorem constructor_rejects_exactly_event : ∃ outcome s',
    (V8Event.embedding .standard).constructorCallback .event { isConstructCall := true, holder := 0, args := [] } 0
      ((State.initial 0 0).newObject ((V8Event.embedding .standard).blank ⟨0, 0⟩ .event)).2 = some (outcome, s') ∧
    (∃ error, outcome = .rejected error) ∧ s'.births = 0 := by
  have hci := (V8Event.embedding .standard).passes_construct .event ⟨0, 0⟩ [] (State.initial 0 0)
  obtain ⟨-, outcome, s', heq, hrejected, hs, -⟩ := constructor_rejects_exactly _ _ 0 _ (by rfl) hci
  obtain ⟨error, he⟩ := hrejected.mpr (.inr ⟨rfl, by simp [CallInfo.TypeStringFirst]⟩)
  exact ⟨outcome, s', heq, ⟨error, he⟩, by rw [(hs error he).1]; rfl⟩

end NativeObjects
