import NativeObjects.Proof.Invariant

/-!
# Natives are deleted once

`Accounted` relates the natives that got a wrapper, the cells of their handles
and the natives that were deleted. It holds in every state of every program,
whoever deletes natives (`Accounted.run`), so that `weakCallbackForDOMObjectHolder`
gets live natives only and no native is deleted twice (`deleted_once`).
-/

namespace NativeObjects

variable {ι : Type} [Fintype ι] [DecidableEq ι] {M : Embedding ι}

/-- The births of the natives deleted. -/
def History.deletedBirths (h : History) : List Nat := h.deleted.map Prod.fst

structure Accounted (s : State ι) : Prop where
  /-- The handle of a native that got a wrapper has its cell, or is reset and the native deleted. -/
  wrapped : ∀ b c, (b, c) ∈ s.history.wrapped → c < s.nextCell ∧
    ((∃ cell p, s.cells c = some cell ∧ cell.weak = some p ∧ p.birth = b) ∨
      s.cells c = none ∧ b ∈ s.history.deletedBirths)
  cell : ∀ c cell p, s.cells c = some cell → cell.weak = some p → (p.birth, c) ∈ s.history.wrapped
  deleted : ∀ b ∈ s.history.deletedBirths, b < s.births ∧ ∀ p n, s.Live p n → p.birth ≠ b
  once : s.history.deletedBirths.Nodup
  collected : ∀ b, (b, .collector) ∈ s.history.deleted → ∃ c, (b, c) ∈ s.history.wrapped

namespace Accounted

variable {s : State ι}

omit [Fintype ι] [DecidableEq ι] in
theorem initial (isolate : IsolateId) (context : ContextId) : Accounted (.initial isolate context : State ι) where
  wrapped _ _ h := nomatch h
  cell _ _ _ h := nomatch h
  deleted _ h := nomatch h
  once := List.nodup_nil
  collected _ h := nomatch h

omit [Fintype ι] [DecidableEq ι] in
/-- Only the natives, the cells and the history of both count. -/
theorem frame {s' : State ι} (h : Accounted s) (hn : s'.natives = s.natives) (hb : s'.births = s.births)
    (hc : s'.cells = s.cells) (hnc : s'.nextCell = s.nextCell) (hw : s'.history.wrapped = s.history.wrapped)
    (hd : s'.history.deleted = s.history.deleted) : Accounted s' := by
  constructor
  case wrapped =>
    intro b c hbc
    rw [hnc, hc, History.deletedBirths, hd]
    exact h.wrapped b c (hw ▸ hbc)
  case cell =>
    intro c cell p hcell hp
    rw [hw]
    exact h.cell c cell p (hc ▸ hcell) hp
  case deleted =>
    intro b hbd
    rw [hb]
    rw [History.deletedBirths, hd] at hbd
    refine ⟨(h.deleted b hbd).1, fun p n hp => (h.deleted b hbd).2 p n ?_⟩
    rwa [State.Live, ← hn]
  case once =>
    rw [History.deletedBirths, hd]
    exact h.once
  case collected =>
    intro b hbd
    rw [hw]
    exact h.collected b (hd ▸ hbd)

omit [Fintype ι] [DecidableEq ι] in
theorem allocate (h : Accounted s) {p : NativePtr} {ev : Event ι} (hfree : s.natives p.addr = none)
    (hp : p.birth = s.births) (hb : ev.birth = p.birth) : Accounted (s.allocate p ev) := by
  refine ⟨h.wrapped, h.cell, fun b hbd => ⟨Nat.lt_succ_of_lt (h.deleted b hbd).1, fun q m hq => ?_⟩, h.once,
    h.collected⟩
  rcases (State.live_allocate hfree hb).mp hq with ⟨rfl, -⟩ | hq
  · have := (h.deleted b hbd).1
    omega
  · exact (h.deleted b hbd).2 q m hq

omit [Fintype ι] [DecidableEq ι] in
/-- Replacing a native by one of its birth. -/
theorem replace {s' : State ι} (h : Accounted s) {p : NativePtr} {n : Event ι} (n' : Event ι) (hp : s.Live p n)
    (hb : n'.birth = n.birth) (hs : s'.natives = Function.update s.natives p.addr (some n')) :
    ∀ b ∈ s.history.deletedBirths, ∀ q m, s'.Live q m → q.birth ≠ b := by
  intro b hbd q m hq
  rcases (State.live_replace n' hp hb hs).mp hq with ⟨rfl, -⟩ | ⟨-, hq⟩
  · exact (h.deleted b hbd).2 q n hp
  · exact (h.deleted b hbd).2 q m hq

omit [Fintype ι] [DecidableEq ι] in
theorem link (h : Accounted s) (info : ι → WrapperTypeInfo ι) {p : NativePtr} {n : Event ι} (hp : s.Live p n) (t : ι)
    (o : ObjectId) (obj : JSObject ι) : Accounted (s.link info p n t o obj) := by
  have hcells : ∀ {c}, c ≠ s.nextCell → (s.link info p n t o obj).cells c = s.cells c :=
    fun hc => Function.update_of_ne hc ..
  have hnew : (s.link info p n t o obj).cells s.nextCell = some _ := Function.update_self ..
  constructor
  case wrapped =>
    intro b c hbc
    rcases List.mem_cons.mp hbc with heq | hbc
    · cases heq
      exact ⟨Nat.lt_succ_self _, .inl ⟨_, p, hnew, rfl, hp.2.symm⟩⟩
    · obtain ⟨hlt, hw⟩ := h.wrapped b c hbc
      rw [hcells (Nat.ne_of_lt hlt)]
      exact ⟨Nat.lt_succ_of_lt hlt, hw⟩
  case cell =>
    intro c cell q hc hq
    by_cases hcn : c = s.nextCell
    · subst hcn
      cases hnew.symm.trans hc
      cases hq
      rw [← hp.2]
      exact List.mem_cons_self
    · exact List.mem_cons_of_mem _ (h.cell c cell q ((hcells hcn).symm.trans hc) hq)
  case deleted =>
    exact fun b hbd => ⟨(h.deleted b hbd).1, h.replace { n with wrapper := some s.nextCell } hp rfl rfl b hbd⟩
  case once => exact h.once
  case collected =>
    intro b hbd
    obtain ⟨c, hc⟩ := h.collected b hbd
    exact ⟨c, List.mem_cons_of_mem _ hc⟩

theorem remove (h : Accounted s) (hc : Coherent M s) {p : NativePtr} {n : Event ι} (hp : s.Live p n)
    {deleter : Deleter} (hd : deleter = .collector → ∃ c, n.wrapper = some c) :
    Accounted (s.remove deleter p n) := by
  have hbirths : (s.remove deleter p n).history.deletedBirths = n.birth :: s.history.deletedBirths := rfl
  constructor
  case wrapped =>
    intro b c hbc
    obtain ⟨hlt, hw⟩ := h.wrapped b c hbc
    refine ⟨hlt, ?_⟩
    by_cases hwc : n.wrapper = some c
    · obtain ⟨o, hl⟩ := hc.linked p n c hp hwc
      refine .inr ⟨?_, ?_⟩
      · simp only [State.remove, hwc, Function.update_self]
      · rcases hw with ⟨cell, q, hcell, hq, rfl⟩ | ⟨hnone, -⟩
        · cases hl.cell.symm.trans hcell
          cases hq
          rw [hbirths, hp.2]
          exact List.mem_cons_self
        · exact absurd (hnone.symm.trans hl.cell) (by simp)
    · rw [State.cells_remove_of_ne hwc]
      exact hw.imp id fun hw => ⟨hw.1, List.mem_cons_of_mem _ hw.2⟩
  case cell =>
    intro c cell q hcell hq
    exact h.cell c cell q (State.cells_of_remove hcell).1 hq
  case deleted =>
    intro b hbd
    rcases List.mem_cons.mp hbd with rfl | hbd
    · refine ⟨hp.2 ▸ hc.births p n hp, fun q m hq heq => ?_⟩
      obtain ⟨hqp, hq⟩ := (State.live_remove hp deleter).mp hq
      exact hqp (hc.distinct q p m n hq hp (heq.trans hp.2))
    · exact ⟨(h.deleted b hbd).1, fun q m hq => (h.deleted b hbd).2 q m ((State.live_remove hp deleter).mp hq).2⟩
  case once =>
    rw [hbirths, List.nodup_cons]
    exact ⟨fun hbd => (h.deleted _ hbd).2 p n hp hp.2.symm, h.once⟩
  case collected =>
    intro b hbd
    rcases List.mem_cons.mp hbd with heq | hbd
    · cases heq
      obtain ⟨c, hw⟩ := hd rfl
      obtain ⟨o, hl⟩ := hc.linked p n c hp hw
      have := h.cell c _ p hl.cell rfl
      exact ⟨c, hp.2 ▸ this⟩
    · exact h.collected b hbd

theorem effect {s' : State ι} {op : Op ι} (h : Accounted s) (hi : Inv M s) (he : Effect M s op s') :
    Accounted s' := by
  cases he with
  | interfaceTemplate => exact h.frame rfl rfl rfl rfl rfl rfl
  | newRejected => exact h.frame rfl rfl rfl rfl rfl rfl
  | @newAccepted f args addr t v ht hfree ha =>
    have h₁ : Accounted (s.newObject (M.blank f t)).2 := h.frame rfl rfl rfl rfl rfl rfl
    have h₂ : Accounted ((s.newObject (M.blank f t)).2.allocate ⟨addr, s.births⟩ (M.scripted t v s.births)) :=
      h₁.allocate hfree rfl rfl
    exact (h₂.link M.info (State.live_self_allocate hfree rfl) t s.nextObject
      (M.blank f t)).frame rfl rfl rfl rfl rfl rfl
  | callNothing => exact h
  | callReach => exact h.frame rfl rfl rfl rfl rfl rfl
  | drop => exact h.frame rfl rfl rfl rfl rfl rfl
  | nativeNew hfree => exact h.allocate hfree rfl rfl
  | wrapAgain => exact h.frame rfl rfl rfl rfl rfl rfl
  | @wrapBare p context addr n ft templates hp hw ht hc hg =>
    have h₁ : Accounted ((s.setTemplates templates).newObject (M.blank ⟨ft, s.context⟩ n.typeInfo)).2 :=
      h.frame rfl rfl rfl rfl rfl rfl
    exact (h₁.link M.info hp n.typeInfo s.nextObject (M.blank ⟨ft, s.context⟩ n.typeInfo)).frame rfl rfl rfl rfl rfl rfl
  | repaint hp hn =>
    exact ⟨h.wrapped, h.cell, fun b hbd => ⟨(h.deleted b hbd).1, h.replace _ hp hn.birth rfl b hbd⟩, h.once,
      h.collected⟩
  | destroy hp => exact h.remove hi.coherent hp nofun
  | collectOrphan => exact h.frame rfl rfl rfl rfl rfl rfl
  | @collectWrapper o p n c ho hp hw hl =>
    rw [State.remove_discard]
    exact (h.remove hi.coherent hp fun _ => ⟨c, hw⟩).frame rfl rfl rfl rfl rfl rfl
  | enterContext => exact h.frame rfl rfl rfl rfl rfl rfl
  | setTerminating => exact h.frame rfl rfl rfl rfl rfl rfl

theorem run {tr : List (State ι × Op ι)} {s : State ι} (h : M.system.Run tr s) : Inv M s ∧ Accounted s := by
  refine h.invariant' ?_ fun s op s' (hs : Inv M s ∧ Accounted s) he =>
    ⟨hs.1.effect (hs.1.step he), hs.2.effect hs.1 (hs.1.step he)⟩
  rintro s ⟨isolate, context, rfl⟩
  exact ⟨.initial isolate context, .initial isolate context⟩

end Accounted

/-- Natives are deleted once, by the collector or by native code. -/
structure DeletedOnce (s : State ι) : Prop where
  /-- The parameter of a weak registration is live. -/
  parameter : ∀ c cell p, s.cells c = some cell → cell.weak = some p → s.IsLive p
  /-- A collection deletes the live native whose wrapper it takes, or no native. -/
  collect : ∀ o, s.Collectable o → s.collect o = some (s.discard o) ∨ ∃ p n, s.Live p n ∧
    Wrappable.getWrapper n s = some o ∧ s.collect o = some ((s.discard o).remove .collector p n)
  /-- No native is deleted twice. -/
  nodup : s.history.deletedBirths.Nodup
  /-- The handle of a deleted native is reset, and no registration has it as its parameter. -/
  reset : ∀ b ∈ s.history.deletedBirths, (∀ c, (b, c) ∈ s.history.wrapped → s.cells c = none) ∧
    ∀ c cell p, s.cells c = some cell → cell.weak = some p → p.birth ≠ b
  /-- The collector deletes natives that got a wrapper only. -/
  wrapped : ∀ b, (b, .collector) ∈ s.history.deleted → ∃ c, (b, c) ∈ s.history.wrapped
  /-- Once all wrappers are collected, the natives that got one are deleted. -/
  all : (∀ o ∈ s.history.returned, s.objects o = none) → ∀ b c, (b, c) ∈ s.history.wrapped →
    s.history.deletedBirths.count b = 1

/-- Whatever a program does, its natives are deleted at most once, and those that
got a wrapper exactly once when all wrappers are collected. -/
theorem deleted_once {tr : List (State ι × Op ι)} {s : State ι} (h : M.system.Run tr s) : DeletedOnce s := by
  obtain ⟨hi, ha⟩ := Accounted.run h
  have hparam : ∀ c cell p, s.cells c = some cell → cell.weak = some p →
      ∃ n, s.Live p n ∧ Linked M s p n c cell.object := by
    intro c cell p hc hp
    obtain ⟨-, q, n, hq, hw⟩ := hi.coherent.cells c cell hc
    have hl := hi.coherent.linked_of_cell hq hw hc
    cases hp.symm.trans (congrArg Cell.weak (Option.some.inj (hc.symm.trans hl.cell)))
    exact ⟨n, hq, hl⟩
  constructor
  case parameter =>
    intro c cell p hc hp
    obtain ⟨n, hn, -⟩ := hparam c cell p hc hp
    exact ⟨n, hn⟩
  case collect =>
    intro o ho
    rcases hi.coherent.collect o with ⟨-, heq⟩ | ⟨p, n, c, hp, hw, hl, heq⟩
    · exact .inl heq
    · refine .inr ⟨p, n, hp, ?_, heq⟩
      rw [Wrappable.getWrapper, hw, Option.bind_some, hl.cell, Option.map_some]
  case nodup => exact ha.once
  case reset =>
    intro b hb
    have hne : ∀ c cell p, s.cells c = some cell → cell.weak = some p → p.birth ≠ b := by
      intro c cell p hc hp
      obtain ⟨n, hn, -⟩ := hparam c cell p hc hp
      exact (ha.deleted b hb).2 p n hn
    refine ⟨fun c hbc => ?_, hne⟩
    rcases (ha.wrapped b c hbc).2 with ⟨cell, p, hc, hp, hpb⟩ | ⟨hnone, -⟩
    · exact absurd hpb (hne c cell p hc hp)
    · exact hnone
  case wrapped => exact ha.collected
  case all =>
    intro hall b c hbc
    refine List.count_eq_one_of_mem ha.once ?_
    rcases (ha.wrapped b c hbc).2 with ⟨cell, p, hc, hp, -⟩ | ⟨-, hb⟩
    · -- the wrapper of a live native is not collected
      obtain ⟨n, -, hl⟩ := hparam c cell p hc hp
      obtain ⟨obj, ho, -⟩ := hl.object
      exact absurd ((hall cell.object (hi.handed c cell hc)).symm.trans ho) (by simp)
    · exact hb

/-- Native code deletes the native of an event that script made, another native
is stored at its address and wrapped, and both wrappers are collected. -/
theorem deleted_once_event : ∃ tr s, (V8Event.embedding .standard).system.Run tr s ∧
    s.history.deleted = [(1, .collector), (0, .nativeCode)] ∧ DeletedOnce s := by
  have h₀ : (V8Event.embedding .standard).system.Run [] (.initial 0 0) := .start ⟨0, 0, rfl⟩
  have h₁ := Hierarchy.run_next (.interfaceTemplate .event) h₀ trivial (by decide)
  have h₂ := Hierarchy.run_next (.scriptNew ⟨0, 0⟩ [.string ⟨[97], by decide⟩] 0) h₁ ⟨⟨"Event", by decide⟩, rfl⟩
    (by decide)
  have h₃ := Hierarchy.run_next (.destroy ⟨0, 0⟩) h₂ ⟨_, rfl, rfl⟩ (by decide)
  have h₄ := Hierarchy.run_next (.nativeNew .event [98] 0) h₃ ⟨by decide, rfl⟩ (by decide)
  have h₅ := Hierarchy.run_next (.wrap ⟨0, 1⟩ 0 1) h₄ ⟨⟨_, rfl, rfl⟩, rfl⟩ (by decide)
  have h₆ := Hierarchy.run_next (.drop 0) h₅ (show 0 ∈ _ by decide) (by decide)
  have h₇ := Hierarchy.run_next (.collect 0) h₆ ((Inv.run h₆).collectable (by decide) (by decide)) (by decide)
  have h₈ := Hierarchy.run_next (.drop 1) h₇ (show 1 ∈ _ by decide) (by decide)
  have h₉ := Hierarchy.run_next (.collect 1) h₈ ((Inv.run h₈).collectable (by decide) (by decide)) (by decide)
  exact ⟨_, _, h₉, by decide, deleted_once h₉⟩

end NativeObjects
