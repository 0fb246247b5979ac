import NativeObjects.Proof.Operations

/-!
# The heaps of a program fit together

`Coherent` relates the native heap, the handle cells, the JavaScript heap and
the template cache: a native's handle has a cell, weak with the native as its
parameter, of an object whose fields name the native and its class. It holds in
every state of a program, between operations and inside them, whoever deletes
natives; each lemma below is about one thing that operations do.
-/

namespace NativeObjects

variable {ι : Type}

/-! ## Live natives -/

theorem State.live_of_native {s : State ι} {a : Addr} {n : Event ι} (h : s.natives a = some n) :
    s.Live ⟨a, n.birth⟩ n := ⟨h, rfl⟩

theorem State.Live.native {s : State ι} {p : NativePtr} {n : Event ι} (h : s.Live p n) : s.native p = some n := h.1

theorem State.Live.unique {s : State ι} {p : NativePtr} {n m : Event ι} (h : s.Live p n) (h' : s.Live p m) : n = m :=
  Option.some.inj (h.1.symm.trans h'.1)

theorem NativePtr.eq_of_addr {p q : NativePtr} (ha : q.addr = p.addr) (hb : q.birth = p.birth) : q = p := by
  cases p
  cases q
  rw [NativePtr.mk.injEq]
  exact ⟨ha, hb⟩

theorem State.Live.ne_addr {s : State ι} {p q : NativePtr} {n m : Event ι} (h : s.Live p n) (h' : s.Live q m)
    (hne : q ≠ p) : q.addr ≠ p.addr := by
  intro ha
  have hnm : m = n := Option.some.inj (h'.1.symm.trans (ha ▸ h.1))
  exact hne (NativePtr.eq_of_addr ha (h'.2.symm.trans (hnm ▸ h.2)))

/-- What is live after the native at `p` was replaced, or deleted. -/
theorem State.live_update {s s' : State ι} {p : NativePtr} {n : Event ι} {x : Option (Event ι)} (hp : s.Live p n)
    (hx : ∀ m, x = some m → m.birth = p.birth) (h : s'.natives = Function.update s.natives p.addr x)
    {q : NativePtr} {m : Event ι} : s'.Live q m ↔ q = p ∧ x = some m ∨ q ≠ p ∧ s.Live q m := by
  unfold State.Live
  rw [h]
  by_cases hq : q = p
  · subst hq
    simp only [Function.update_self, true_and, ne_eq, not_true, false_and, or_false]
    exact ⟨fun h => h.1, fun h => ⟨h, hx m h⟩⟩
  · simp only [hq, false_and, false_or, ne_eq, not_false_eq_true, true_and]
    by_cases ha : q.addr = p.addr
    · rw [ha, Function.update_self]
      constructor
      · rintro ⟨h₁, h₂⟩
        exact absurd (NativePtr.eq_of_addr ha (h₂.symm.trans (hx m h₁))) hq
      · rintro ⟨h₁, h₂⟩
        exact absurd ha (hp.ne_addr ⟨ha ▸ h₁, h₂⟩ hq)
    · rw [Function.update_of_ne ha]

/-- What is live after the native at `p` was replaced by another of its birth. -/
theorem State.live_replace {s s' : State ι} {p : NativePtr} {n : Event ι} (n' : Event ι) (hp : s.Live p n)
    (hb : n'.birth = n.birth) (h : s'.natives = Function.update s.natives p.addr (some n')) {q : NativePtr}
    {m : Event ι} : s'.Live q m ↔ q = p ∧ m = n' ∨ q ≠ p ∧ s.Live q m := by
  have hx : ∀ m, some n' = some m → m.birth = p.birth := fun m hm => Option.some.inj hm ▸ hb.trans hp.2
  rw [State.live_update hp hx h, Option.some.injEq, eq_comm (a := n')]

theorem State.isLive_replace {s s' : State ι} {p : NativePtr} {n : Event ι} (n' : Event ι) (hp : s.Live p n)
    (hb : n'.birth = n.birth) (h : s'.natives = Function.update s.natives p.addr (some n')) {q : NativePtr} :
    s'.IsLive q ↔ s.IsLive q := by
  have hlive : ∀ {q m}, s'.Live q m ↔ q = p ∧ m = n' ∨ q ≠ p ∧ s.Live q m := State.live_replace n' hp hb h
  constructor
  · rintro ⟨m, hm⟩
    rcases hlive.mp hm with ⟨rfl, -⟩ | ⟨-, hq⟩
    · exact ⟨n, hp⟩
    · exact ⟨m, hq⟩
  · rintro ⟨m, hm⟩
    by_cases hqp : q = p
    · exact ⟨n', hlive.mpr (.inl ⟨hqp, rfl⟩)⟩
    · exact ⟨m, hlive.mpr (.inr ⟨hqp, hm⟩)⟩

/-- What is live after a new native was stored at a free address. -/
theorem State.live_allocate {s : State ι} {p : NativePtr} {ev : Event ι} (hfree : s.natives p.addr = none)
    (hb : ev.birth = p.birth) {q : NativePtr} {m : Event ι} :
    (s.allocate p ev).Live q m ↔ q = p ∧ m = ev ∨ s.Live q m := by
  unfold State.Live
  rw [show (s.allocate p ev).natives = Function.update s.natives p.addr (some ev) from rfl]
  by_cases ha : q.addr = p.addr
  · rw [ha, Function.update_self, hfree]
    simp only [reduceCtorEq, false_and, or_false, Option.some.injEq]
    constructor
    · rintro ⟨rfl, h⟩
      exact ⟨NativePtr.eq_of_addr ha (h.symm.trans hb), rfl⟩
    · rintro ⟨rfl, rfl⟩
      exact ⟨rfl, hb⟩
  · have hq : q ≠ p := fun h => ha (congrArg NativePtr.addr h)
    rw [Function.update_of_ne ha]
    simp only [hq, false_and, false_or]

theorem State.live_self_allocate {s : State ι} {p : NativePtr} {ev : Event ι} (hfree : s.natives p.addr = none)
    (hb : ev.birth = p.birth) : (s.allocate p ev).Live p ev := (State.live_allocate hfree hb).mpr (.inl ⟨rfl, rfl⟩)

theorem State.live_remove {s : State ι} {p : NativePtr} {n : Event ι} (hp : s.Live p n) (deleter : Deleter)
    {q : NativePtr} {m : Event ι} : (s.remove deleter p n).Live q m ↔ q ≠ p ∧ s.Live q m := by
  have h : (s.remove deleter p n).natives = Function.update s.natives p.addr none := rfl
  have hx : ∀ m : Event ι, none = some m → m.birth = p.birth := nofun
  refine (State.live_update hp hx h).trans ?_
  simp only [reduceCtorEq, and_false, false_or]

/-! ## The invariant -/

variable [Fintype ι] [DecidableEq ι] (M : Embedding ι)

/-- The native `n`, at `p`, and the object `o` are linked in both directions; `c`
is the cell of the native's handle. -/
structure Linked (s : State ι) (p : NativePtr) (n : Event ι) (c : CellId) (o : ObjectId) : Prop where
  cell : s.cells c =
    some { object := o, wrapperClassId := (M.info n.typeInfo).gcClassId, weak := some p }
  object : ∃ obj, s.objects o = some obj ∧ obj.fields[0]? = some (.native p) ∧
    obj.fields[1]? = some (.typeInfo n.typeInfo) ∧
    s.templates.cached (M.family.name n.typeInfo) = some obj.template

structure Coherent (s : State ι) : Prop where
  templates : Templates.Inv M.family [] s.templates
  births : ∀ p n, s.Live p n → p.birth < s.births
  distinct : ∀ p p' n n', s.Live p n → s.Live p' n' → p.birth = p'.birth → p = p'
  targets : ∀ p n q, s.Live p n → n.target = some q ∨ n.currentTarget = some q → q.birth < s.births
  /-- The handle of a native refers to an object that the native is linked with. -/
  linked : ∀ p n c, s.Live p n → n.wrapper = some c → ∃ o, Linked M s p n c o
  /-- A cell is the cell of a native's handle. -/
  cells : ∀ c cell, s.cells c = some cell → c < s.nextCell ∧ ∃ p n, s.Live p n ∧ n.wrapper = some c
  /-- An object that names a live native is linked with it. -/
  objects : ∀ o obj, s.objects o = some obj → o < s.nextObject ∧
    ∀ p, obj.fields[0]? = some (.native p) → p.birth < s.births ∧
      ∀ n, s.Live p n → ∃ c, n.wrapper = some c ∧ Linked M s p n c o

variable {M}

omit [DecidableEq ι] in
theorem Linked.mono {s s' : State ι} {p : NativePtr} {n : Event ι} {c : CellId} {o : ObjectId}
    (h : Linked M s p n c o) (hc : s'.cells c = s.cells c) (ho : s'.objects o = s.objects o)
    (ht : ∀ name ft, s.templates.cached name = some ft → s'.templates.cached name = some ft) :
    Linked M s' p n c o := by
  obtain ⟨hcell, obj, hobj, h₀, h₁, htpl⟩ := h
  exact ⟨hc.trans hcell, obj, ho.trans hobj, h₀, h₁, ht _ _ htpl⟩

omit [DecidableEq ι] in
/-- `link` links the native with the object. -/
theorem linked_link {s : State ι} {p : NativePtr} {n : Event ι} {o : ObjectId} {obj : JSObject ι}
    (hl : 2 ≤ obj.fields.length) (ht : s.templates.cached (M.family.name n.typeInfo) = some obj.template) :
    Linked M (s.link M.info p n n.typeInfo o obj) p { n with wrapper := some s.nextCell } s.nextCell o := by
  refine ⟨Function.update_self .., _, Function.update_self .., ?_, ?_, ht⟩
  · rw [List.getElem?_set_ne (by decide), List.getElem?_set_self (by omega)]
  · rw [List.getElem?_set_self (by rw [List.length_set]; omega)]

variable (M) in
omit [DecidableEq ι] in
/-- An accepted `new` links the native that it made with the object. -/
theorem linked_new (s : State ι) {f : JSFunction} (addr : Addr) {t : ι} (v : JSString)
    (ht : s.templates.cached (M.family.name t) = some f.template) :
    Linked M (((s.newObject (M.blank f t)).2.allocate ⟨addr, s.births⟩ (M.scripted t v s.births)).link M.info
        ⟨addr, s.births⟩ (M.scripted t v s.births) t s.nextObject (M.blank f t))
      ⟨addr, s.births⟩ { M.scripted t v s.births with wrapper := some s.nextCell } s.nextCell s.nextObject :=
  linked_link (n := M.scripted t v s.births) (M.two_le_length_blank f t) ht

variable (M) in
omit [DecidableEq ι] in
/-- `Wrap` links a native that had no wrapper with the object that it made. -/
theorem linked_wrap (s : State ι) (p : NativePtr) {n : Event ι} {ft : TemplateId} {templates : Templates ι}
    (ht : templates.cached (M.family.name n.typeInfo) = some ft) :
    Linked M (((s.setTemplates templates).newObject (M.blank ⟨ft, s.context⟩ n.typeInfo)).2.link M.info p n
        n.typeInfo s.nextObject (M.blank ⟨ft, s.context⟩ n.typeInfo))
      p { n with wrapper := some s.nextCell } s.nextCell s.nextObject :=
  linked_link (M.two_le_length_blank _ _) ht

omit [DecidableEq ι] in
/-- An object is linked with one native only. -/
theorem Linked.unique {s : State ι} {p q : NativePtr} {n m : Event ι} {c d : CellId} {o : ObjectId}
    (h : Linked M s p n c o) (h' : Linked M s q m d o) : p = q := by
  obtain ⟨obj, ho, hf, -⟩ := h.object
  obtain ⟨obj', ho', hf', -⟩ := h'.object
  cases ho.symm.trans ho'
  cases hf.symm.trans hf'
  rfl

namespace Coherent

variable {s : State ι}

theorem initial (isolate : IsolateId) (context : ContextId) : Coherent M (.initial isolate context : State ι) where
  templates := Templates.Inv.empty
  births _ _ h := nomatch h.1
  distinct _ _ _ _ h := nomatch h.1
  targets _ _ _ h := nomatch h.1
  linked _ _ _ h := nomatch h.1
  cells _ _ h := nomatch h
  objects _ _ h := nomatch h

/-- The cell of a handle says which object it refers to. -/
theorem linked_of_cell (h : Coherent M s) {p : NativePtr} {n : Event ι} {c : CellId} {cell : Cell}
    (hp : s.Live p n) (hw : n.wrapper = some c) (hc : s.cells c = some cell) : Linked M s p n c cell.object := by
  obtain ⟨o, hl⟩ := h.linked p n c hp hw
  cases hc.symm.trans hl.cell
  exact hl

theorem linked_of_getWrapper (h : Coherent M s) {p : NativePtr} {n : Event ι} {o : ObjectId} (hp : s.Live p n)
    (hg : Wrappable.getWrapper n s = some o) : ∃ c, n.wrapper = some c ∧ Linked M s p n c o := by
  obtain ⟨c, hw, hg⟩ := Option.bind_eq_some_iff.mp hg
  obtain ⟨cell, hc, rfl⟩ := Option.map_eq_some_iff.mp hg
  exact ⟨c, hw, h.linked_of_cell hp hw hc⟩

/-- Pointers to live natives of the same birth are equal, where every pointer that
is live now was live before. -/
theorem distinct_of_live (h : Coherent M s) {s' : State ι} (hold : ∀ {q}, s'.IsLive q ↔ s.IsLive q)
    {q q' : NativePtr} {m m' : Event ι} (hq : s'.Live q m) (hq' : s'.Live q' m') (heq : q.birth = q'.birth) :
    q = q' := by
  obtain ⟨m₀, hm₀⟩ := hold.mp ⟨m, hq⟩
  obtain ⟨m₁, hm₁⟩ := hold.mp ⟨m', hq'⟩
  exact h.distinct q q' m₀ m₁ hm₀ hm₁ heq

theorem birth_lt_of_isLive (h : Coherent M s) {q : NativePtr} (hq : s.IsLive q) : q.birth < s.births := by
  obtain ⟨m, hm⟩ := hq
  exact h.births q m hm

/-- At most one cell refers to an object. -/
theorem cell_unique (h : Coherent M s) {c d : CellId} {cell cell' : Cell} (hc : s.cells c = some cell)
    (hd : s.cells d = some cell') (ho : cell'.object = cell.object) : d = c := by
  obtain ⟨-, p, n, hp, hw⟩ := h.cells c cell hc
  obtain ⟨-, q, m, hq, hw'⟩ := h.cells d cell' hd
  have hl := h.linked_of_cell hp hw hc
  have hl' := h.linked_of_cell hq hw' hd
  rw [ho] at hl'
  cases hl.unique hl'
  cases hp.unique hq
  exact Option.some.inj (hw'.symm.trans hw)

/-- Only the objects, natives, cells and templates count. -/
theorem frame {s' : State ι} (h : Coherent M s) (ht : s'.templates = s.templates) (ho : s'.objects = s.objects)
    (hno : s'.nextObject = s.nextObject) (hc : s'.cells = s.cells) (hnc : s'.nextCell = s.nextCell)
    (hn : s'.natives = s.natives) (hb : s'.births = s.births) : Coherent M s' := by
  cases s
  cases s'
  simp only at ht ho hno hc hnc hn hb
  subst ht ho hno hc hnc hn hb
  exact ⟨h.templates, h.births, h.distinct, h.targets, fun p n c hp hw => (h.linked p n c hp hw).imp
    fun o hl => hl.mono rfl rfl fun _ _ => id, h.cells, fun o obj hobj => ⟨(h.objects o obj hobj).1,
      fun p hp => ⟨((h.objects o obj hobj).2 p hp).1, fun n hn => (((h.objects o obj hobj).2 p hp).2 n hn).imp
        fun c hc => ⟨hc.1, hc.2.mono rfl rfl fun _ _ => id⟩⟩⟩⟩

/-! ## Templates and objects -/

/-- A request for a template keeps what is cached. -/
theorem setTemplates (h : Coherent M s) {templates : Templates ι} (ht : Templates.Inv M.family [] templates)
    (hc : ∀ name ft, s.templates.cached name = some ft → templates.cached name = some ft) :
    Coherent M (s.setTemplates templates) where
  templates := ht
  births := h.births
  distinct := h.distinct
  targets := h.targets
  linked p n c hp hw := (h.linked p n c hp hw).imp fun _ hl => hl.mono rfl rfl hc
  cells := h.cells
  objects o obj hobj := by
    obtain ⟨hlt, hf⟩ := h.objects o obj hobj
    refine ⟨hlt, fun p hp => ⟨(hf p hp).1, fun n hn => ?_⟩⟩
    obtain ⟨c, hw, hl⟩ := (hf p hp).2 n hn
    exact ⟨c, hw, hl.mono rfl rfl hc⟩

/-- A new object, which names no native. -/
theorem newObject (h : Coherent M s) {obj : JSObject ι} (hobj : ∀ p, obj.fields[0]? ≠ some (.native p)) :
    Coherent M (s.newObject obj).2 := by
  have hold : ∀ o obj', s.objects o = some obj' → (s.newObject obj).2.objects o = s.objects o :=
    fun o obj' ho => Function.update_of_ne (Nat.ne_of_lt (h.objects o obj' ho).1) ..
  have hlink : ∀ {p n c o}, Linked M s p n c o → Linked M (s.newObject obj).2 p n c o := by
    intro p n c o hl
    obtain ⟨obj', ho, -⟩ := hl.object
    exact hl.mono rfl (hold o obj' ho) fun _ _ => id
  refine ⟨h.templates, h.births, h.distinct, h.targets, fun p n c hp hw => ?_, h.cells, fun o obj' ho => ?_⟩
  · obtain ⟨o, hl⟩ := h.linked p n c hp hw
    exact ⟨o, hlink hl⟩
  · by_cases hnew : o = s.nextObject
    · subst hnew
      cases (Function.update_self ..).symm.trans ho
      exact ⟨Nat.lt_succ_self _, fun p hp => absurd hp (hobj p)⟩
    · have ho' : s.objects o = some obj' := (Function.update_of_ne hnew ..).symm.trans ho
      obtain ⟨hlt, hf⟩ := h.objects o obj' ho'
      refine ⟨Nat.lt_succ_of_lt hlt, fun p hp => ⟨(hf p hp).1, fun n hn => ?_⟩⟩
      obtain ⟨c, hw, hl⟩ := (hf p hp).2 n hn
      exact ⟨c, hw, hlink hl⟩

/-- The collector takes an object that no handle refers to. -/
theorem discard (h : Coherent M s) {o : ObjectId} (hc : ∀ c cell, s.cells c = some cell → cell.object ≠ o) :
    Coherent M (s.discard o) := by
  have hlink : ∀ {p n c o'}, Linked M s p n c o' → Linked M (s.discard o) p n c o' := by
    intro p n c o' hl
    exact hl.mono rfl (Function.update_of_ne (hc c _ hl.cell) ..) fun _ _ => id
  refine ⟨h.templates, h.births, h.distinct, h.targets, fun p n c hp hw => ?_, h.cells, fun o' obj ho => ?_⟩
  · obtain ⟨o', hl⟩ := h.linked p n c hp hw
    exact ⟨o', hlink hl⟩
  · have hne : o' ≠ o := by
      rintro rfl
      exact absurd ((Function.update_self ..).symm.trans ho) (by simp)
    obtain ⟨hlt, hf⟩ := h.objects o' obj ((Function.update_of_ne hne ..).symm.trans ho)
    refine ⟨hlt, fun p hp => ⟨(hf p hp).1, fun n hn => ?_⟩⟩
    obtain ⟨c, hw, hl⟩ := (hf p hp).2 n hn
    exact ⟨c, hw, hlink hl⟩

/-! ## Natives -/

/-- A new native, without a wrapper, at a free address. -/
theorem allocate (h : Coherent M s) {p : NativePtr} {ev : Event ι} (hfree : s.natives p.addr = none)
    (hp : p.birth = s.births) (hb : ev.birth = p.birth) (hw : ev.wrapper = none) (ht : ev.target = none)
    (hct : ev.currentTarget = none) : Coherent M (s.allocate p ev) := by
  have hlive : ∀ {q m}, (s.allocate p ev).Live q m ↔ q = p ∧ m = ev ∨ s.Live q m := State.live_allocate hfree hb
  have hlink : ∀ {q m c o}, Linked M s q m c o → Linked M (s.allocate p ev) q m c o :=
    fun hl => hl.mono rfl rfl fun _ _ => id
  have hlt : ∀ {q m}, s.Live q m → q.birth < p.birth := fun hq => hp ▸ h.births _ _ hq
  constructor
  case templates => exact h.templates
  case births =>
    intro q m hq
    show q.birth < s.births + 1
    rcases hlive.mp hq with ⟨rfl, -⟩ | hq
    · omega
    · have := h.births q m hq
      omega
  case distinct =>
    intro q q' m m' hq hq' heq
    rcases hlive.mp hq with ⟨hqp, -⟩ | hold <;> rcases hlive.mp hq' with ⟨hqp', -⟩ | hold'
    · exact hqp.trans hqp'.symm
    · exact absurd (hqp ▸ heq) (hlt hold').ne'
    · exact absurd (hqp' ▸ heq) (hlt hold).ne
    · exact h.distinct q q' m m' hold hold' heq
  case targets =>
    intro q m r hq hr
    rcases hlive.mp hq with ⟨-, rfl⟩ | hq
    · rw [ht, hct] at hr
      exact absurd hr (by simp)
    · exact Nat.lt_succ_of_lt (h.targets q m r hq hr)
  case linked =>
    intro q m c hq hc
    rcases hlive.mp hq with ⟨-, rfl⟩ | hq
    · exact absurd (hw.symm.trans hc) (by simp)
    · exact (h.linked q m c hq hc).imp fun o => hlink
  case cells =>
    intro c cell hc
    obtain ⟨hlt, q, m, hq, hw⟩ := h.cells c cell hc
    exact ⟨hlt, q, m, hlive.mpr (.inr hq), hw⟩
  case objects =>
    intro o obj ho
    obtain ⟨hlt, hf⟩ := h.objects o obj ho
    refine ⟨hlt, fun q hq => ⟨Nat.lt_succ_of_lt (hf q hq).1, fun m hm => ?_⟩⟩
    rcases hlive.mp hm with ⟨rfl, -⟩ | hm
    · -- no object names a native that was not made yet
      exact absurd (hf q hq).1 (by omega)
    · obtain ⟨c, hw, hl⟩ := (hf q hq).2 m hm
      exact ⟨c, hw, hlink hl⟩

/-- Deleting a native: its cell goes with it. -/
theorem remove (h : Coherent M s) {p : NativePtr} {n : Event ι} (hp : s.Live p n) (deleter : Deleter) :
    Coherent M (s.remove deleter p n) := by
  have hlive : ∀ {q m}, (s.remove deleter p n).Live q m ↔ q ≠ p ∧ s.Live q m := State.live_remove hp deleter
  have hlink : ∀ {q m c o}, q ≠ p → Linked M s q m c o → Linked M (s.remove deleter p n) q m c o := by
    intro q m c o hqp hl
    refine hl.mono (State.cells_remove_of_ne fun hw => hqp ?_) rfl fun _ _ => id
    -- the cell of another native's handle is another cell
    obtain ⟨o', hl'⟩ := h.linked p n c hp hw
    exact (Option.some.inj (congrArg Cell.weak (Option.some.inj (hl.cell.symm.trans hl'.cell))))
  constructor
  case templates => exact h.templates
  case births => exact fun q m hq => h.births q m (hlive.mp hq).2
  case distinct => exact fun q q' m m' hq hq' => h.distinct q q' m m' (hlive.mp hq).2 (hlive.mp hq').2
  case targets => exact fun q m r hq => h.targets q m r (hlive.mp hq).2
  case linked =>
    intro q m c hq hc
    obtain ⟨hqp, hq⟩ := hlive.mp hq
    exact (h.linked q m c hq hc).imp fun o => hlink hqp
  case cells =>
    intro c cell hc
    obtain ⟨hc, hne⟩ := State.cells_of_remove hc
    obtain ⟨hlt, q, m, hq, hw⟩ := h.cells c cell hc
    refine ⟨hlt, q, m, hlive.mpr ⟨?_, hq⟩, hw⟩
    rintro rfl
    exact hne (hp.unique hq ▸ hw)
  case objects =>
    intro o obj ho
    obtain ⟨hlt, hf⟩ := h.objects o obj ho
    refine ⟨hlt, fun q hq => ⟨(hf q hq).1, fun m hm => ?_⟩⟩
    obtain ⟨hqp, hm⟩ := hlive.mp hm
    obtain ⟨c, hw, hl⟩ := (hf q hq).2 m hm
    exact ⟨c, hw, hlink hqp hl⟩

/-- Storing a native with another content: its targets name natives that were made. -/
theorem setNative (h : Coherent M s) {p : NativePtr} {n n' : Event ι} (hp : s.Live p n) (hb : n'.birth = n.birth)
    (ht : n'.typeInfo = n.typeInfo) (hw : n'.wrapper = n.wrapper)
    (htg : ∀ q, n'.target = some q ∨ n'.currentTarget = some q → q.birth < s.births) :
    Coherent M (s.setNative p n') := by
  have hlive : ∀ {q m}, (s.setNative p n').Live q m ↔ q = p ∧ m = n' ∨ q ≠ p ∧ s.Live q m :=
    State.live_replace n' hp hb rfl
  have hold : ∀ {q}, (s.setNative p n').IsLive q ↔ s.IsLive q := State.isLive_replace n' hp hb rfl
  have hlink : ∀ {q m m' c o}, m'.typeInfo = m.typeInfo → Linked M s q m c o →
      Linked M (s.setNative p n') q m' c o := by
    intro q m m' c o hm ⟨hcell, hobj⟩
    refine ⟨?_, ?_⟩
    · rw [hm]
      exact hcell
    · rw [hm]
      exact hobj
  constructor
  case templates => exact h.templates
  case births => exact fun q m hq => h.birth_lt_of_isLive (hold.mp ⟨m, hq⟩)
  case distinct => exact fun _ _ _ _ hq hq' => h.distinct_of_live hold hq hq'
  case targets =>
    intro q m r hq hr
    rcases hlive.mp hq with ⟨-, hm⟩ | ⟨-, hq⟩
    · cases hm
      exact htg r hr
    · exact h.targets q m r hq hr
  case linked =>
    intro q m c hq hc
    rcases hlive.mp hq with ⟨rfl, hm⟩ | ⟨-, hq⟩
    · cases hm
      exact (h.linked q n c hp (hw ▸ hc)).imp fun o => hlink ht
    · exact (h.linked q m c hq hc).imp fun o => hlink rfl
  case cells =>
    intro c cell hc
    obtain ⟨hlt, q, m, hq, hwm⟩ := h.cells c cell hc
    by_cases hqp : q = p
    · subst hqp
      exact ⟨hlt, q, n', hlive.mpr (.inl ⟨rfl, rfl⟩), hw.trans (hp.unique hq ▸ hwm)⟩
    · exact ⟨hlt, q, m, hlive.mpr (.inr ⟨hqp, hq⟩), hwm⟩
  case objects =>
    intro o obj ho
    obtain ⟨hlt, hf⟩ := h.objects o obj ho
    refine ⟨hlt, fun q hq => ⟨(hf q hq).1, fun m hm => ?_⟩⟩
    rcases hlive.mp hm with ⟨rfl, heq⟩ | ⟨-, hm⟩
    · cases heq
      obtain ⟨c, hwn, hl⟩ := (hf q hq).2 n hp
      exact ⟨c, hw.trans hwn, hlink ht hl⟩
    · obtain ⟨c, hwm, hl⟩ := (hf q hq).2 m hm
      exact ⟨c, hwm, hlink rfl hl⟩

/-- Linking a native that has no wrapper with an object that names no native leaves
what is linked linked. -/
theorem linked_of_linked (h : Coherent M s) {p q : NativePtr} {n m : Event ι} {c : CellId} {o o' : ObjectId}
    {obj : JSObject ι} (ho : s.objects o = some obj) (hf : ∀ q, obj.fields[0]? ≠ some (.native q))
    (hold : Linked M s q m c o') : Linked M (s.link M.info p n n.typeInfo o obj) q m c o' := by
  obtain ⟨obj', hobj', hq, -⟩ := hold.object
  have hne : o' ≠ o := by
    rintro rfl
    cases ho.symm.trans hobj'
    exact hf q hq
  have hlt := (h.cells c _ hold.cell).1
  exact hold.mono (Function.update_of_ne (Nat.ne_of_lt hlt) ..) (Function.update_of_ne hne ..) fun _ _ => id

theorem link (h : Coherent M s) {p : NativePtr} {n : Event ι} {o : ObjectId} {obj : JSObject ι} (hp : s.Live p n)
    (hw : n.wrapper = none) (ho : s.objects o = some obj) (hl : 2 ≤ obj.fields.length)
    (hf : ∀ q, obj.fields[0]? ≠ some (.native q))
    (ht : s.templates.cached (M.family.name n.typeInfo) = some obj.template) :
    Coherent M (s.link M.info p n n.typeInfo o obj) := by
  set n' : Event ι := { n with wrapper := some s.nextCell } with hn'
  set s' := s.link M.info p n n.typeInfo o obj with hs'
  have hlive : ∀ {q m}, s'.Live q m ↔ q = p ∧ m = n' ∨ q ≠ p ∧ s.Live q m := State.live_replace n' hp rfl rfl
  have hold : ∀ {q}, s'.IsLive q ↔ s.IsLive q := State.isLive_replace n' hp rfl rfl
  have hnew : Linked M s' p n' s.nextCell o := linked_link hl ht
  have hlink : ∀ {q m c o'}, Linked M s q m c o' → Linked M s' q m c o' := h.linked_of_linked ho hf
  constructor
  case templates => exact h.templates
  case births => exact fun q m hq => h.birth_lt_of_isLive (hold.mp ⟨m, hq⟩)
  case distinct => exact fun _ _ _ _ hq hq' => h.distinct_of_live hold hq hq'
  case targets =>
    intro q m r hq hr
    rcases hlive.mp hq with ⟨-, hm⟩ | ⟨-, hq⟩
    · cases hm
      exact h.targets p n r hp hr
    · exact h.targets q m r hq hr
  case linked =>
    intro q m c hq hc
    rcases hlive.mp hq with ⟨rfl, hm⟩ | ⟨-, hq⟩
    · cases hm
      cases hc
      exact ⟨o, hnew⟩
    · exact (h.linked q m c hq hc).imp fun o => hlink
  case cells =>
    intro c cell hc
    by_cases hcn : c = s.nextCell
    · subst hcn
      exact ⟨Nat.lt_succ_self _, p, n', hlive.mpr (.inl ⟨rfl, rfl⟩), rfl⟩
    · obtain ⟨hlt, q, m, hq, hwm⟩ := h.cells c cell ((Function.update_of_ne hcn ..).symm.trans hc)
      refine ⟨Nat.lt_succ_of_lt hlt, q, m, hlive.mpr (.inr ⟨?_, hq⟩), hwm⟩
      rintro rfl
      cases hp.unique hq
      exact absurd (hw.symm.trans hwm) (by simp)
  case objects =>
    intro o' obj' ho'
    by_cases hne : o' = o
    · subst hne
      refine ⟨(h.objects o' obj ho).1, fun q hq => ?_⟩
      obtain ⟨obj'', ho'', hf'', -⟩ := hnew.object
      cases ho''.symm.trans ho'
      cases hf''.symm.trans hq
      refine ⟨h.births p n hp, fun m hm => ?_⟩
      cases (hlive.mpr (.inl ⟨rfl, rfl⟩)).unique hm
      exact ⟨s.nextCell, rfl, hnew⟩
    · obtain ⟨hlt, hfo⟩ := h.objects o' obj' ((Function.update_of_ne hne ..).symm.trans ho')
      refine ⟨hlt, fun q hq => ⟨(hfo q hq).1, fun m hm => ?_⟩⟩
      rcases hlive.mp hm with ⟨rfl, heq⟩ | ⟨-, hm⟩
      · -- `p` had no wrapper, so no other object names it
        obtain ⟨c, hwn, -⟩ := (hfo q hq).2 n hp
        exact absurd (hw.symm.trans hwn) (by simp)
      · obtain ⟨c, hwm, hlm⟩ := (hfo q hq).2 m hm
        exact ⟨c, hwm, hlink hlm⟩

end Coherent

end NativeObjects
