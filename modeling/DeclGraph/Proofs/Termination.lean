import DeclGraph.Proofs.Bookkeeping

/-!
# Measuring ends

Types are measured by a recursion that is bounded by a depth, and takes the fallback at the end of
it. That end is never reached: each type that is entered puts its name on the stack of active
names, where a name stands once and is that of a type. So the depth that `LayoutInput.metrics`
starts with covers all types that are not active yet, and the recursion is the one without a depth.

* `LayoutM.Agree`: two computations do the same while certain names are active.
* `LayoutInput.agree_metricsOver`: **two depths that cover the types not active agree**, whatever is
  done at the end of either.
* `LayoutInput.run_metrics`: the equation of the recursion, without a depth.
* `measuring_ends`: the recursion ends for every request, leaves the active names as they were, and
  what is in the memo stays there.
-/

namespace DeclGraph

/-- Two computations do the same on memos in which `names` are active, and leave these active. -/
def LayoutM.Agree (names : List String) {α : Type} (x y : LayoutM α) : Prop :=
  ∀ m, m.active = names → x.run m = y.run m ∧ (x.run m).2.active = names

namespace LayoutM

variable {names : List String} {α β : Type}

theorem agree_pure (a : α) : Agree names (pure a) (pure a) := fun _ hm => ⟨rfl, hm⟩

theorem agree_modify (f : Memo → Memo) (hf : ∀ m, (f m).active = m.active) :
    Agree names (modify f) (modify f) := fun m hm => ⟨rfl, (hf m).trans hm⟩

theorem Agree.bind {x y : LayoutM α} {f g : α → LayoutM β} (h : Agree names x y)
    (hfg : ∀ a, Agree names (f a) (g a)) : Agree names (x >>= f) (y >>= g) := by
  intro m hm
  obtain ⟨hrun, hactive⟩ := h m hm
  obtain ⟨hrest, hactive'⟩ := hfg (x.run m).1 (x.run m).2 hactive
  refine ⟨?_, hactive'⟩
  rw [run_bind, run_bind, ← hrun]
  exact hrest

theorem agree_note (level : Level) (text : String) :
    Agree names (note level text) (note level text) := agree_modify _ fun _ => rfl

theorem agree_ofNoted (x : Noted α) : Agree names (ofNoted x) (ofNoted x) :=
  (agree_modify (fun m => { m with notes := x.notes.reverse ++ m.notes }) fun _ => rfl).bind
    fun _ => agree_pure _

end LayoutM

namespace LayoutInput

open LayoutM

/-! ## Two ways to measure the types that others are made of -/

section Agree

variable {d : LayoutInput} {space : AddressSpace} {names : List String}
  {f g : TypeId → LayoutM Metrics} (h : ∀ id, Agree names (f id) (g id))

include h

theorem agree_measureBases (es : List BaseEdge) :
    Agree names (d.measureBases f es) (d.measureBases g es) := by
  induction es with
  | nil => exact agree_pure _
  | cons e es ih =>
    cases he : e.target with
    | none =>
      simp only [measureBases, he]
      exact (agree_note _ _).bind fun _ => ih
    | some id =>
      simp only [measureBases, he]
      exact (h id).bind fun _ => ih.bind fun _ => agree_pure _

theorem agree_leafMetrics (l : Leaf) : Agree names (leafMetrics f l) (leafMetrics g l) := by
  cases l with
  | pointer => exact agree_pure _
  | primitive p => exact agree_pure _
  | type id => exact h id
  | unsized =>
    exact (agree_modify (fun m => { m with defaulted := m.defaulted + 1 }) fun _ => rfl).bind
      fun _ => agree_pure _

theorem agree_measureMember (scope : String) (m : Member) :
    Agree names (d.measureMember space f scope m) (d.measureMember space g scope m) :=
  (agree_ofNoted _).bind fun e => (agree_leafMetrics h e.leaf).bind fun _ => agree_pure _

theorem agree_measureMembers (scope : String) (ms : List Member) :
    Agree names (d.measureMembers space f scope ms) (d.measureMembers space g scope ms) := by
  induction ms with
  | nil => exact agree_pure _
  | cons m ms ih =>
    exact (agree_measureMember h scope m).bind fun _ => ih.bind fun _ => agree_pure _

theorem agree_layoutWith (n : DeclaredType) :
    Agree names (d.layoutWith space f n) (d.layoutWith space g n) :=
  (agree_measureBases h _).bind fun _ => (agree_measureMembers h _ _).bind fun _ => agree_pure _

theorem agree_measureWith (n : DeclaredType) :
    Agree names (d.measureWith space f n) (d.measureWith space g n) := by
  cases hagg : n.isAggregate with
  | true =>
    rw [d.measureWith_of_isAggregate space f hagg, d.measureWith_of_isAggregate space g hagg]
    exact (agree_layoutWith h n).bind fun l =>
      (agree_modify (Memo.store n.id l) fun _ => rfl).bind fun _ => agree_pure _
  | false =>
    by_cases hk : n.kind = .primitive
    · simp only [measureWith, hk]
      exact agree_pure _
    · rw [d.measureWith_of_not_isAggregate space f hagg hk,
        d.measureWith_of_not_isAggregate space g hagg hk]
      exact agree_pure _

end Agree

/-! ## The depth of the recursion -/

variable (d : LayoutInput) (space : AddressSpace)

/-- The measurement of a type, if `sizeOf` measures those that it is made of. -/
def measureOnce (sizeOf : TypeId → LayoutM Metrics) (id : TypeId) : LayoutM Metrics := do
  match d.types.find? id with
  | none => return .fallback
  | some n =>
    let memo ← get
    match memo.metrics.find? n.qualifiedName with
    | some known => return known
    | none =>
      if n.qualifiedName ∈ memo.active then
        LayoutM.note .debug ("Size cycle through '" ++ n.qualifiedName ++ "', using fallback")
        return .fallback
      else
        modify (Memo.enter n.qualifiedName)
        let found ← d.measureWith space sizeOf n
        modify (Memo.leave n.qualifiedName found)
        return found

/-- The recursion that is `depth` types deep, with `bottom` at the end of it. -/
def metricsOver (bottom : TypeId → LayoutM Metrics) : Nat → TypeId → LayoutM Metrics
  | 0 => bottom
  | depth + 1 => d.measureOnce space (metricsOver bottom depth)

theorem metricsOver_fallback (depth : Nat) :
    d.metricsOver space (fun _ => return .fallback) depth = d.metricsWithin space depth := by
  induction depth with
  | zero => rfl
  | succ depth ih =>
    funext id
    rw [metricsOver, ih]
    rfl

variable {d space} {names : List String}

/-- A type puts its name on the stack before it asks for others. -/
theorem agree_measureOnce {f g : TypeId → LayoutM Metrics}
    (h : ∀ id n, d.types.find? id = some n → n.qualifiedName ∉ names →
      ∀ p, Agree (n.qualifiedName :: names) (f p) (g p)) (id : TypeId) :
    Agree names (d.measureOnce space f id) (d.measureOnce space g id) := by
  rintro m rfl
  cases hn : d.types.find? id with
  | none =>
    simp only [measureOnce, hn, run_pure, and_self]
  | some n =>
    simp only [measureOnce, hn, run_bind, run_get]
    cases hx : m.metrics.find? n.qualifiedName with
    | some x => exact ⟨rfl, rfl⟩
    | none =>
      by_cases hactive : n.qualifiedName ∈ m.active
      · simp only [hactive, if_true, run_bind, run_note, run_pure, and_self]
      · simp only [hactive, if_false, run_bind, run_modify, run_pure]
        have hagree : Agree (n.qualifiedName :: m.active) (d.measureWith space f n)
            (d.measureWith space g n) := agree_measureWith (h id n hn hactive) n
        obtain ⟨hrun, hafter⟩ := hagree (m.enter n.qualifiedName) rfl
        refine ⟨by rw [hrun], ?_⟩
        rw [Memo.leave, hafter, List.erase_cons_head]

/-- **Two depths agree that cover the types not active**, whatever is done at the end of either. -/
theorem agree_metricsOver {bottom bottom' : TypeId → LayoutM Metrics} {k : Nat} :
    ∀ {k' : Nat} {names : List String}, d.Stack names → d.types.size < k + names.length →
      d.types.size < k' + names.length → ∀ id,
      Agree names (d.metricsOver space bottom k id) (d.metricsOver space bottom' k' id) := by
  -- on the depth, for all stacks: the stack grows by one name at each step down
  induction k with
  | zero =>
    intro k' names hstack hk
    have hle := hstack.length_le
    omega
  | succ k ih =>
    intro k' names hstack hk hk'
    have hle := hstack.length_le
    obtain ⟨j, rfl⟩ : ∃ j, k' = j + 1 := ⟨k' - 1, by omega⟩
    refine agree_measureOnce fun id n hn hactive => ih (hstack.cons hn hactive) ?_ ?_
    · rw [List.length_cons]
      omega
    · rw [List.length_cons]
      omega

/-- The end of the recursion is not reached: nothing depends on what is done there, or on how far
away it is. -/
theorem run_metricsOver {m : Memo} (hm : d.Stack m.active) (bottom : TypeId → LayoutM Metrics)
    {k : Nat} (hk : d.depth ≤ k) (id : TypeId) :
    (d.metricsOver space bottom k id).run m = (d.metrics space id).run m := by
  have hdepth : d.types.size < d.depth := Nat.lt_succ_self _
  rw [metrics, ← metricsOver_fallback]
  exact (agree_metricsOver hm (by omega) (by omega) id m rfl).1

/-- The equation of the recursion, without a depth. -/
theorem run_metrics {m : Memo} (hm : d.Stack m.active) (id : TypeId) :
    (d.metrics space id).run m = (d.measureOnce space (d.metrics space) id).run m := by
  have hdeeper : (d.metricsOver space (fun _ => return .fallback) (d.depth + 1) id).run m =
      (d.metrics space id).run m := run_metricsOver hm _ (Nat.le_succ _) id
  rw [← hdeeper, metricsOver, metricsOver_fallback]
  rfl

/-! ## Requests -/

variable (d) in
/-- The types that a request asks for. -/
def asks : LayoutRequest → List TypeId
  | .metrics id => [id]
  | .named name => (d.byName.find? name).toList
  | .layout id => if ((d.types.find? id).map (·.isAggregate)).getD false then [id] else []
  | .bases id => (d.basesOf id).filterMap (·.target)
  | .members id _ =>
    d.typesOf (((d.types.find? id).map (·.qualifiedName)).getD "") (d.membersOf id)

/-- The memo has what a request asks for once it has been served. -/
theorem Reached.has_asked (hd : d.Distinct) {m : Memo} (hm : d.Reached space m)
    (r : LayoutRequest) : ∀ id ∈ d.asks r, (d.serve space m r).Has d id := by
  have hidle : m.Booked d space ∧ m.active = [] := hm.booked hd
  have hsizes : ∀ id, ((bookkeeping space hd).during []).Keeps (d.metrics space id)
      fun m => (bookkeeping space hd).found m id := fun id =>
    (bookkeeping space hd).metricsWithin (Nat.lt_succ_self _)
  intro p hp
  cases r with
  | metrics id =>
    obtain rfl := List.mem_singleton.1 hp
    exact fun n hn _ => ⟨_, hm.find?_metrics hd hn⟩
  | named name =>
    have hname : d.byName.find? name = some p := Option.mem_toList.1 hp
    simp only [LayoutInput.serve, metricsNamed, hname]
    exact fun n hn _ => ⟨_, hm.find?_metrics hd hn⟩
  | layout id =>
    simp only [asks] at hp
    split at hp
    · next hagg =>
      obtain rfl := List.mem_singleton.1 hp
      intro n hn hactive
      rw [hn] at hagg
      obtain ⟨l, m', hrun, -, hbooks⟩ := hm.exists_layout hd hn hagg
      simp only [LayoutInput.serve, hrun] at hactive ⊢
      exact hbooks.measured.resolve_left hactive
    · cases hp
  | bases id =>
    obtain ⟨-, -, hbs⟩ := Contract.measureBases (d.basesOf id) (fun id _ => hsizes id) m hidle
    obtain ⟨x, hx⟩ := exists_metrics_of_bases hbs p hp
    exact fun n hn hactive => ⟨x, hx n hn hactive⟩
  | members id start =>
    obtain ⟨-, -, hms⟩ : _ ∧ _ ∧ List.Forall₂ (MemberMeasured d space _ _) _ _ :=
      Contract.measureMembers (d.membersOf id) (fun _ _ id _ => hsizes id) m hidle
    obtain ⟨x, hx⟩ := exists_metrics_of_members hms p hp
    exact fun n hn hactive => ⟨x, hx n hn hactive⟩

/-- What a request leaves in a memo: no other names active than before, metrics for all types that
it asked for and for what they are made of, and all that was there. -/
structure Answered (d : LayoutInput) (r : LayoutRequest) (m m' : Memo) : Prop where
  active : m'.active = m.active
  known : ∀ id ∈ d.asks r, ∀ p, Relation.ReflTransGen d.HasPart id p →
    ∀ n, d.types.find? p = some n → ∃ x, m'.metrics.find? n.qualifiedName = some x
  metrics : ∀ name x, m.metrics.find? name = some x → m'.metrics.find? name = some x
  layouts : ∀ id l, m.layouts.find? id = some l → m'.layouts.find? id = some l

theorem Reached.answered (hd : d.Distinct)
    (hparts : ∀ {id n}, d.types.find? id = some n → n.isAggregate = false → d.partsOf n = [])
    {m : Memo} (hm : d.Reached space m) (r : LayoutRequest) :
    d.Answered r m (d.serve space m r) := by
  have henough : ∀ id, (bookkeeping space hd).enough d.depth [] id := fun _ => Nat.lt_succ_self _
  obtain ⟨hbooked, hidle⟩ := hm.booked hd
  obtain ⟨⟨hbooked', hidle'⟩, hcarries⟩ := serve_keeps henough r ⟨hbooked, hidle⟩
  refine ⟨hidle'.trans hidle.symm, ?_, hcarries.metrics, ?_⟩
  · intro id hid p hp n hn
    have hhas := hbooked'.has_below hidle' hparts (hm.has_asked hd r id hid) hp
    exact hhas n hn (by simp [hidle'])
  · intro id l hl
    exact hcarries.layouts id l hl fun n _ => by simp [hidle]

end LayoutInput

/-- **Measuring ends**, whatever the declarations contain and whatever has been requested before.
The recursion needs no depth: it satisfies its own equation on all memos that it meets, and no
deeper one, with anything at its end, does otherwise. A request leaves the active names as they
were and replaces nothing, and what it finds for types stays in the memo. -/
theorem measuring_ends {s : Store} (hs : s.Reachable) {m : Memo}
    (hm : s.layoutInput.Reached .words m) (r : LayoutRequest) :
    (∀ m' : Memo, s.layoutInput.Stack m'.active → ∀ id,
      (s.layoutInput.metrics .words id).run m' =
          (s.layoutInput.measureOnce .words (s.layoutInput.metrics .words) id).run m' ∧
        ∀ bottom k, s.layoutInput.depth ≤ k →
          (s.layoutInput.metricsOver .words bottom k id).run m' =
            (s.layoutInput.metrics .words id).run m') ∧
    s.layoutInput.Answered r m (s.layoutInput.serve .words m r) ∧
    ∀ id n, s.layoutInput.types.find? id = some n →
      ((s.layoutInput.metrics .words id).run m).2.metrics.find? n.qualifiedName =
        some ((s.layoutInput.metrics .words id).run m).1 := by
  have hd := hs.sound.distinct
  refine ⟨fun m' hstack id => ⟨LayoutInput.run_metrics hstack id, fun bottom k hk => ?_⟩, ?_, ?_⟩
  · exact LayoutInput.run_metricsOver hstack bottom hk id
  · exact hm.answered hd hs.sound.partsOf_eq_nil r
  · exact fun id n hn => hm.find?_metrics hd hn

/-- A struct with a member of a type that derives from it, and with one of a typedef that comes back
to itself. -/
def entwined : Store :=
  [.addType { name := "A", kind := .struct },
    .addMember ⟨1⟩ { name := "b", typeString := "B", order := some 0 },
    .addMember ⟨1⟩ { name := "x", typeString := "X", order := some 1 },
    .addType { name := "B", kind := .struct },
    .addBase ⟨6⟩ "A",
    Operation.addTypedef "" "X" "Y",
    Operation.addTypedef "" "Y" "X",
    .stageResolutions [(⟨2⟩, .type ⟨6⟩)],
    .stageBases [(⟨7⟩, ⟨1⟩)],
    .flush].foldl Store.perform Store.empty

theorem reachable_entwined : entwined.Reachable := Store.leads_foldl _ _

theorem measuring_ends_entwined :
    entwined.layoutInput.HasPart ⟨1⟩ ⟨6⟩ ∧ entwined.layoutInput.HasPart ⟨6⟩ ⟨1⟩ ∧
    entwined.layoutInput.Reached .words (entwined.layoutInput.serve .words {} (.layout ⟨6⟩)) ∧
    entwined.layoutInput.Answered (.members ⟨1⟩ 0)
      (entwined.layoutInput.serve .words {} (.layout ⟨6⟩))
      (entwined.layoutInput.serve .words (entwined.layoutInput.serve .words {} (.layout ⟨6⟩))
        (.members ⟨1⟩ 0)) := by
  have hordered : entwined.Ordered := by decide +kernel
  have hparts : entwined.layoutInput.parts ⟨1⟩ = [⟨6⟩] ∧
      entwined.layoutInput.parts ⟨6⟩ = [⟨1⟩] := by
    rw [hordered.layoutInput_eq]
    decide +kernel
  have hm : entwined.layoutInput.Reached .words
      (entwined.layoutInput.serve .words {} (.layout ⟨6⟩)) := .serve .fresh (.layout ⟨6⟩)
  refine ⟨?_, ?_, hm, (measuring_ends reachable_entwined hm (.members ⟨1⟩ 0)).2.1⟩
  · rw [LayoutInput.HasPart, hparts.1]
    exact List.mem_cons_self
  · rw [LayoutInput.HasPart, hparts.2]
    exact List.mem_cons_self

end DeclGraph
