import Mathlib.Data.List.Forall2
import Mathlib.Data.List.Induction
import Mathlib.Data.List.Nodup
import Mathlib.Tactic.Common
import DeclGraph.Store.Staging

/-!
# What writes do to tables

A fresh key goes to the end of a table, and writing a key that is there changes its value in place.
So a batch of writes moves no key, and each value is changed by the writes of its own key only, in
the order in which they were staged.

* `Table.entries_insert`: an entry under a fresh key.
* `Table.find?_writeAll`: what a batch of writes does to one value.
* `Table.find?_writeAll_fill`: a field that is written once only is written by the first write.
* `Table.find?_writeAll_set`: a field that is overwritten holds what the last write says.
* `Table.writeAll_eq_zero`: a batch that counts no change.
* `Table.Lifts`: two tables with related values under the same keys.
* `Table.Keeps`: a table that holds whatever another one holds.
* `Table.mapValues`: a table with every value changed.
-/

namespace DeclGraph

theorem exists_of_forall₂ {α β : Type} {R : α → β → Prop} {as : List α} {bs : List β}
    (h : List.Forall₂ R as bs) : ∀ b ∈ bs, ∃ a ∈ as, R a b := by
  induction h with
  | nil => simp
  | @cons a b as bs hab _ ih =>
    intro b' hb'
    rcases List.mem_cons.1 hb' with rfl | hb'
    · exact ⟨a, by simp, hab⟩
    · obtain ⟨a', ha', hab'⟩ := ih b' hb'
      exact ⟨a', by simp [ha'], hab'⟩

theorem map_eq_of_forall₂ {α β γ : Type} {R : α → β → Prop} {f : α → γ} {g : β → γ} {as : List α}
    {bs : List β} (h : List.Forall₂ R as bs) (hR : ∀ a b, R a b → g b = f a) :
    bs.map g = as.map f := by
  induction h with
  | nil => rfl
  | cons hab _ ih => rw [List.map_cons, List.map_cons, hR _ _ hab, ih]

theorem eq_map_of_forall₂ {α β : Type} {R : α → β → Prop} {f : α → β} {as : List α} {bs : List β}
    (h : List.Forall₂ R as bs) (hR : ∀ a b, R a b → b = f a) : bs = as.map f := by
  have hmap := map_eq_of_forall₂ (g := fun b => b) h hR
  rwa [List.map_id'] at hmap

theorem forall₂_of_map_eq {α β γ : Type} {f : α → γ} {g : β → γ} {R : α → β → Prop} {as : List α} :
    ∀ {bs : List β}, bs.map g = as.map f → (∀ a ∈ as, ∀ b ∈ bs, g b = f a → R a b) →
      List.Forall₂ R as bs := by
  induction as with
  | nil =>
    intro bs h _
    rw [List.map_eq_nil_iff.1 h]
    exact .nil
  | cons a as ih =>
    intro bs h hR
    obtain ⟨b, bs, rfl, hb, htail⟩ := List.map_eq_cons_iff.1 h
    refine .cons (hR a List.mem_cons_self b List.mem_cons_self hb) (ih htail fun a ha b hb => ?_)
    exact hR a (List.mem_cons_of_mem _ ha) b (List.mem_cons_of_mem _ hb)

namespace Table

variable {κ α ω : Type} [DecidableEq κ] {t t' : Table κ α} {k : κ} {a b : α}

/-! ## Entries -/

theorem find?_eq_none_iff : t.find? k = none ↔ k ∉ t.keys := by
  simp only [find?, Option.map_eq_none_iff, List.find?_eq_none, decide_eq_true_eq, keys,
    List.mem_map, not_exists, not_and]

theorem contains_iff : t.contains k = true ↔ k ∈ t.keys := by
  rw [contains, Option.isSome_iff_ne_none, Ne, find?_eq_none_iff, not_not]

theorem exists_find? (h : k ∈ t.keys) : ∃ a, t.find? k = some a := by
  rwa [← contains_iff, contains, Option.isSome_iff_exists] at h

theorem mem_entries_of_find? (h : t.find? k = some a) : (k, a) ∈ t.entries := by
  obtain ⟨e, he, rfl⟩ := Option.map_eq_some_iff.1 h
  have hk := List.find?_some he
  simp only [decide_eq_true_eq] at hk
  exact hk ▸ List.mem_of_find?_eq_some he

theorem mem_values_of_find? (h : t.find? k = some a) : a ∈ t.values :=
  List.mem_map.2 ⟨_, mem_entries_of_find? h, rfl⟩

theorem find?_of_mem_entries (hnodup : t.keys.Nodup) (h : (k, a) ∈ t.entries) :
    t.find? k = some a := by
  obtain ⟨es⟩ := t
  induction es with
  | nil => simp at h
  | cons e es ih =>
    obtain ⟨m, b⟩ := e
    rw [find?_cons]
    simp only [keys, List.map_cons, List.nodup_cons] at hnodup
    rcases List.mem_cons.1 h with h | h
    · obtain ⟨rfl, rfl⟩ := Prod.mk.inj h
      exact if_pos rfl
    · rw [if_neg]
      · exact ih hnodup.2 h
      · rintro rfl
        exact hnodup.1 (List.mem_map.2 ⟨_, h, rfl⟩)

theorem find?_eq_some_iff (hnodup : t.keys.Nodup) : t.find? k = some a ↔ (k, a) ∈ t.entries :=
  ⟨mem_entries_of_find?, find?_of_mem_entries hnodup⟩

/-- A value that says what its key is is found under it. -/
theorem find?_of_mem_values {key : α → κ} (hnodup : t.keys.Nodup)
    (hkey : ∀ e ∈ t.entries, key e.2 = e.1) (h : a ∈ t.values) : t.find? (key a) = some a := by
  obtain ⟨⟨k, a⟩, he, rfl⟩ := List.mem_map.1 h
  exact find?_of_mem_entries hnodup ((hkey _ he).symm ▸ he)

omit [DecidableEq κ] in
theorem map_values {key : α → κ} (hkey : ∀ e ∈ t.entries, key e.2 = e.1) :
    t.values.map key = t.keys := by
  rw [values, List.map_map]
  exact List.map_congr_left hkey

omit [DecidableEq κ] in
theorem values_nodup {key : α → κ} (hnodup : t.keys.Nodup)
    (hkey : ∀ e ∈ t.entries, key e.2 = e.1) : t.values.Nodup :=
  (map_values hkey ▸ hnodup).of_map key

/-- An entry under a fresh key goes to the end. -/
theorem entries_insert (h : k ∉ t.keys) (a : α) :
    (t.insert k a).entries = t.entries ++ [(k, a)] := by
  rw [insert, if_neg]
  rwa [contains_iff]

theorem keys_insert (h : k ∉ t.keys) (a : α) : (t.insert k a).keys = t.keys ++ [k] := by
  rw [keys, entries_insert h, List.map_append]
  rfl

theorem values_insert (h : k ∉ t.keys) (a : α) : (t.insert k a).values = t.values ++ [a] := by
  rw [values, entries_insert h, List.map_append]
  rfl

theorem forall_mem_values_insert {P : α → Prop} (h : ∀ b ∈ t.values, P b) (ha : P a) :
    ∀ b ∈ (t.insert k a).values, P b := by
  rw [insert]
  split
  · rw [values, modify, List.map_map, List.forall_mem_map]
    intro e he
    dsimp only [Function.comp_apply]
    split
    · exact ha
    · exact h _ (List.mem_map_of_mem he)
  · rw [values, List.map_append, List.forall_mem_append]
    exact ⟨h, by simpa using ha⟩

/-- Writing a key that is there moves no key. -/
theorem keys_insert_of_mem (h : k ∈ t.keys) (a : α) : (t.insert k a).keys = t.keys := by
  rw [insert, if_pos (contains_iff.2 h), keys_modify]

theorem list_push (t : Table κ (List α)) (k l : κ) (a : α) :
    (t.push k a).list l = if l = k then t.list k ++ [a] else t.list l := by
  simp only [list, push, find?_insert]
  split
  · rfl
  · rfl

/-! ## Batches of writes -/

section Batches

variable (change : ω → α → Option α)

/-- One write, where it has an effect. -/
def settle (a : α) (w : ω) : α := (change w a).getD a

variable {change}

@[simp] theorem writeAll_nil (t : Table κ α) : writeAll change t [] = (t, 0) := rfl

theorem writeAll_cons_some {w : ω} {ws : List (κ × ω)} (h : (t.find? k).bind (change w) = some a) :
    writeAll change t ((k, w) :: ws) =
      ((writeAll change (t.insert k a) ws).1, (writeAll change (t.insert k a) ws).2 + 1) := by
  simp only [writeAll, h]

theorem writeAll_cons_none {w : ω} {ws : List (κ × ω)} (h : (t.find? k).bind (change w) = none) :
    writeAll change t ((k, w) :: ws) = writeAll change t ws := by
  simp only [writeAll, h]

theorem keys_writeAll (t : Table κ α) (ws : List (κ × ω)) :
    (writeAll change t ws).1.keys = t.keys := by
  induction ws generalizing t with
  | nil => rfl
  | cons w ws ih =>
    obtain ⟨k, w⟩ := w
    cases h : (t.find? k).bind (change w) with
    | none => rw [writeAll_cons_none h, ih]
    | some a =>
      obtain ⟨b, hb, -⟩ := Option.bind_eq_some_iff.1 h
      rw [writeAll_cons_some h, ih, keys_insert_of_mem (mem_keys_of_find? hb)]

/-- **A value is changed by the writes of its own key**, in the order in which they were staged. -/
theorem find?_writeAll (t : Table κ α) (ws : List (κ × ω)) (k : κ) :
    (writeAll change t ws).1.find? k = (t.find? k).map fun a =>
      ((ws.filter (·.1 = k)).map Prod.snd).foldl (settle change) a := by
  -- on the batch, for all tables: the first write is done before the others are read
  induction ws generalizing t with
  | nil => simp
  | cons w ws ih =>
    obtain ⟨l, w⟩ := w
    cases h : (t.find? l).bind (change w) with
    | none =>
      rw [writeAll_cons_none h, ih]
      by_cases hl : l = k
      · subst hl
        cases ha : t.find? l with
        | none => rfl
        | some a =>
          have hw : change w a = none := by simpa [ha] using h
          simp [settle, hw]
      · simp [hl]
    | some b =>
      obtain ⟨a, ha, hw⟩ := Option.bind_eq_some_iff.1 h
      rw [writeAll_cons_some h, ih, find?_insert]
      by_cases hl : l = k
      · subst hl
        simp [ha, settle, hw]
      · simp [hl, Ne.symm hl]

/-- A batch counts no change exactly when each of its writes leaves the table as it is. -/
theorem writeAll_eq_zero (t : Table κ α) (ws : List (κ × ω)) :
    (writeAll change t ws).2 = 0 ↔ ∀ w ∈ ws, (t.find? w.1).bind (change w.2) = none := by
  induction ws generalizing t with
  | nil => simp
  | cons w ws ih =>
    obtain ⟨k, w⟩ := w
    cases h : (t.find? k).bind (change w) with
    | none => rw [writeAll_cons_none h, ih, List.forall_mem_cons, and_iff_right h]
    | some a =>
      rw [writeAll_cons_some h]
      refine iff_of_false (Nat.succ_ne_zero _) fun hall => ?_
      have hnone := hall (k, w) List.mem_cons_self
      rw [h] at hnone
      cases hnone

/-- A batch with one write for each of its keys counts those that change something. -/
theorem count_writeAll {t : Table κ α} {ws : List (κ × ω)} (hws : (ws.map Prod.fst).Nodup) :
    (writeAll change t ws).2 =
      (ws.filter fun w => ((t.find? w.1).bind (change w.2)).isSome).length := by
  induction ws generalizing t with
  | nil => rfl
  | cons w ws ih =>
    rw [List.map_cons, List.nodup_cons] at hws
    rw [List.filter_cons]
    cases h : (t.find? w.1).bind (change w.2) with
    | none => rw [writeAll_cons_none h, ih hws.2, if_neg (by simp)]
    | some a =>
      rw [writeAll_cons_some h]
      simp only [ih hws.2, Option.isSome_some, if_true, List.length_cons]
      congr 2
      -- the other writes are for other keys, whose values are as they were
      refine List.filter_congr fun v hv => ?_
      have hne : v.1 ≠ w.1 := fun heq => hws.1 (heq ▸ List.mem_map_of_mem hv)
      rw [find?_insert, if_neg hne]

theorem length_writeAll {t : Table κ α} {ws : List (κ × ω)} (hnodup : (ws.map Prod.fst).Nodup)
    (h : ∀ w ∈ ws, ((t.find? w.1).bind (change w.2)).isSome = true) :
    (writeAll change t ws).2 = ws.length := by
  rw [count_writeAll hnodup, List.filter_eq_self.2 h]

/-- A batch that changes nothing leaves the table as it is. -/
theorem writeAll_of_kept {t : Table κ α} {ws : List (κ × ω)}
    (h : ∀ w ∈ ws, (t.find? w.1).bind (change w.2) = none) : writeAll change t ws = (t, 0) := by
  induction ws with
  | nil => rfl
  | cons w ws ih =>
    rw [List.forall_mem_cons] at h
    rw [writeAll_cons_none h.1, ih h.2]

/-- What holds of all values and is kept by the writes of a batch holds of all values after it. -/
theorem writeAll_all {Q : κ → α → Prop} {t : Table κ α} (ws : List (κ × ω))
    (h : ∀ k a, t.find? k = some a → Q k a)
    (hkeep : ∀ w ∈ ws, ∀ a b, Q w.1 a → change w.2 a = some b → Q w.1 b) :
    ∀ k a, (writeAll change t ws).1.find? k = some a → Q k a := by
  intro k a ha
  rw [find?_writeAll] at ha
  obtain ⟨a₀, ha₀, rfl⟩ := Option.map_eq_some_iff.1 ha
  -- only the writes of the key are left, one after the other
  have hall : ∀ (us : List ω), (∀ u ∈ us, ∀ a b, Q k a → change u a = some b → Q k b) →
      ∀ a, Q k a → Q k (us.foldl (settle change) a) := by
    intro us
    induction us with
    | nil => exact fun _ _ h => h
    | cons u us ih =>
      intro hus a ha
      refine ih (fun v hv => hus v (by simp [hv])) _ ?_
      rw [settle]
      cases hc : change u a with
      | none => exact ha
      | some b => exact hus u (by simp) a b ha hc
  refine hall _ (fun u hu a b ha hb => ?_) _ (h k a₀ ha₀)
  obtain ⟨w, hw, rfl⟩ := List.mem_map.1 hu
  obtain ⟨hmem, hk⟩ := List.mem_filter.1 hw
  simp only [decide_eq_true_eq] at hk
  subst hk
  exact hkeep w hmem a b ha hb

/-- A value that no write of its key changes is the same afterwards. -/
theorem find?_writeAll_of_kept {t : Table κ α} {ws : List (κ × ω)} (ha : t.find? k = some a)
    (hkept : ∀ w ∈ ws, w.1 = k → change w.2 a = none) :
    (writeAll change t ws).1.find? k = some a := by
  rw [find?_writeAll, ha, Option.map_some]
  congr 1
  have hall : ∀ w ∈ (ws.filter (·.1 = k)).map Prod.snd, change w a = none := by
    intro w hw
    obtain ⟨e, he, rfl⟩ := List.mem_map.1 hw
    obtain ⟨hmem, hk⟩ := List.mem_filter.1 he
    exact hkept e hmem (of_decide_eq_true hk)
  generalize (ws.filter (·.1 = k)).map Prod.snd = us at hall
  induction us with
  | nil => rfl
  | cons u us ih =>
    rw [List.forall_mem_cons] at hall
    rw [List.foldl_cons, settle, hall.1]
    exact ih hall.2

/-- A value that can be changed once only is changed by the first write of its key. -/
theorem find?_writeAll_of_find? {t : Table κ α} {ws : List (κ × ω)} {w : ω}
    (hw : find? ⟨ws⟩ k = some w) (ha : t.find? k = some a) (hb : change w a = some b)
    (honce : ∀ w', change w' b = none) : (writeAll change t ws).1.find? k = some b := by
  induction ws generalizing t with
  | nil => cases hw
  | cons e ws ih =>
    obtain ⟨l, u⟩ := e
    rw [find?_cons] at hw
    by_cases hl : l = k
    · subst hl
      rw [if_pos rfl, Option.some.injEq] at hw
      subst hw
      rw [writeAll_cons_some (a := b) (by rw [ha]; exact hb)]
      -- later writes of the key find the value changed, and do nothing
      exact find?_writeAll_of_kept (by rw [find?_insert, if_pos rfl]) fun w _ _ => honce _
    · rw [if_neg hl] at hw
      cases hc : (t.find? l).bind (change u) with
      | none =>
        rw [writeAll_cons_none hc]
        exact ih hw ha
      | some c =>
        rw [writeAll_cons_some hc]
        refine ih hw ?_
        rw [find?_insert, if_neg (Ne.symm hl), ha]

/-- What the first write of a batch to `k` says. -/
def firstWrite? (ws : List (κ × ω)) (k : κ) : Option ω := find? ⟨ws⟩ k

/-- What the last write of a batch to `k` says. -/
def lastWrite? (ws : List (κ × ω)) (k : κ) : Option ω := find? ⟨ws.reverse⟩ k

/-- What is empty is filled if a batch writes to it. -/
theorem exists_or_firstWrite? {ws : List (κ × ω)} {w : κ × ω} (hw : w ∈ ws) (o : Option ω) :
    ∃ x, o.or (firstWrite? ws w.1) = some x := by
  cases o with
  | some x => exact ⟨x, rfl⟩
  | none => exact exists_find? (List.mem_map_of_mem hw)

theorem exists_lastWrite? {ws : List (κ × ω)} {w : κ × ω} (hw : w ∈ ws) :
    ∃ x, lastWrite? ws w.1 = some x :=
  exists_find? (List.mem_map_of_mem (List.mem_reverse.2 hw))

/-- If a batch writes one thing only to a key, then that is what it wrote last. -/
theorem lastWrite?_of_forall {ws : List (κ × ω)} {w : ω} (hw : (k, w) ∈ ws)
    (hall : ∀ w', (k, w') ∈ ws → w' = w) : lastWrite? ws k = some w := by
  obtain ⟨w', hw'⟩ := exists_lastWrite? hw
  have hmem : (k, w') ∈ ws := List.mem_reverse.1 (mem_entries_of_find? hw')
  rw [hw', hall w' hmem]

theorem lastWrite?_eq_none {ws : List (κ × ω)} (h : ∀ w ∈ ws, w.1 ≠ k) :
    lastWrite? ws k = none := by
  refine find?_eq_none_iff.2 fun hmem => ?_
  obtain ⟨w, hw, hk⟩ := List.mem_map.1 hmem
  exact h w (List.mem_reverse.1 hw) hk

/-- Where every key belongs to one element of a list, its first write is what the element gives. -/
theorem firstWrite?_of_key {α : Type} (key : α → κ) (f : α → Option ω) {as : List α}
    (has : (as.map key).Nodup) {a : α} (ha : a ∈ as) :
    firstWrite? (as.filterMap fun a => (f a).map (key a, ·)) (key a) = f a := by
  induction as with
  | nil => cases ha
  | cons b as ih =>
    rw [List.map_cons, List.nodup_cons] at has
    rw [List.filterMap_cons]
    rcases List.mem_cons.1 ha with rfl | ha
    · cases hf : f a with
      | some w => exact (find?_cons _ _ _ _).trans (if_pos rfl)
      | none =>
        refine find?_eq_none_iff.2 fun hmem => has.1 ?_
        obtain ⟨w, hw, hk⟩ := List.mem_map.1 hmem
        obtain ⟨b, hb, hfb⟩ := List.mem_filterMap.1 hw
        obtain ⟨x, -, rfl⟩ := Option.map_eq_some_iff.1 hfb
        exact List.mem_map.2 ⟨b, hb, hk⟩
    · have hkey : key b ≠ key a := fun heq => has.1 (heq ▸ List.mem_map_of_mem ha)
      rw [← ih has.2 ha]
      cases f b with
      | none => rfl
      | some w => exact (find?_cons _ _ _ _).trans (if_neg hkey)

theorem firstWrite?_filterMap {ρ : Type} (f : κ × ρ → Option ω) {ps : List (κ × ρ)}
    (hps : (ps.map Prod.fst).Nodup) {p : κ × ρ} (hp : p ∈ ps) :
    firstWrite? (ps.filterMap fun p => (f p).map (p.1, ·)) p.1 = f p :=
  firstWrite?_of_key Prod.fst f hps hp

theorem lastWrite?_filterMap {ρ : Type} (f : κ × ρ → Option ω) {ps : List (κ × ρ)}
    (hps : (ps.map Prod.fst).Nodup) {p : κ × ρ} (hp : p ∈ ps) :
    lastWrite? (ps.filterMap fun p => (f p).map (p.1, ·)) p.1 = f p := by
  have hreverse : (ps.reverse.map Prod.fst).Nodup := by
    rw [List.map_reverse, List.nodup_reverse]
    exact hps
  rw [lastWrite?, ← List.filterMap_reverse]
  exact firstWrite?_filterMap f hreverse (List.mem_reverse.2 hp)

/-- **A field that is written only while it is empty is filled by the first write of the key.** -/
theorem find?_writeAll_fill {t : Table κ α} {f : α → Option ω} {g : ω → α → α}
    (hchange : ∀ w a, change w a = if (f a).isNone then some (g w a) else none)
    (hfill : ∀ w a, f a = none → f (g w a) = some w) (ws : List (κ × ω))
    (ha : t.find? k = some a) : ∃ b, (writeAll change t ws).1.find? k = some b ∧
      f b = (f a).or (firstWrite? ws k) ∧
      (b = a ∨ f a = none ∧ ∃ w, b = g w a) := by
  cases hfield : f a with
  | some w =>
    have hkept : ∀ w', change w' a = none := fun w' => by rw [hchange, hfield]; rfl
    exact ⟨a, find?_writeAll_of_kept ha fun w' _ _ => hkept _, hfield, .inl rfl⟩
  | none =>
    rw [Option.none_or]
    cases hw : firstWrite? ws k with
    | none =>
      refine ⟨a, find?_writeAll_of_kept ha fun w hmem hk => ?_, hfield, .inl rfl⟩
      exact absurd (List.mem_map.2 ⟨w, hmem, hk⟩) (find?_eq_none_iff.1 hw)
    | some w =>
      have hfilled := hfill w a hfield
      have honce : ∀ w', change w' (g w a) = none := fun w' => by rw [hchange, hfilled]; rfl
      have hchanged : change w a = some (g w a) := by rw [hchange, hfield]; rfl
      exact ⟨_, find?_writeAll_of_find? hw ha hchanged honce, hfilled, .inr ⟨rfl, w, rfl⟩⟩

theorem lastWrite?_eq (ws : List (κ × ω)) (k : κ) :
    lastWrite? ws k = ((ws.filter (·.1 = k)).map Prod.snd).getLast? := by
  rw [lastWrite?, find?, ← List.head?_filter, List.filter_reverse, List.head?_reverse,
    List.getLast?_map]

/-- **A field that is overwritten holds what the last write of the key says.** -/
theorem find?_writeAll_set {t : Table κ α} {set : ω → α → α}
    (hsettle : ∀ w a, settle change a w = set w a)
    (hset : ∀ w w' a, set w' (set w a) = set w' a) (ws : List (κ × ω))
    (ha : t.find? k = some a) :
    (writeAll change t ws).1.find? k = some ((lastWrite? ws k).elim a (set · a)) := by
  rw [find?_writeAll, ha, Option.map_some, lastWrite?_eq]
  generalize (ws.filter (·.1 = k)).map Prod.snd = us
  congr 1
  -- on the writes of the key, from the end: what came before the last one is overwritten
  induction us using List.reverseRecOn with
  | nil => rfl
  | append_singleton us w ih =>
    rw [List.foldl_append, List.foldl_cons, List.foldl_nil, hsettle, ih, List.getLast?_concat]
    cases us.getLast? with
    | none => rfl
    | some w' => exact hset w' w a

theorem forall_mem_writeAll {Q : α → Prop} {t : Table κ α} (hnodup : t.keys.Nodup)
    (ws : List (κ × ω)) (h : ∀ e ∈ t.entries, Q e.2)
    (hkeep : ∀ w ∈ ws, ∀ a b, Q a → change w.2 a = some b → Q b) :
    ∀ e ∈ (writeAll change t ws).1.entries, Q e.2 := by
  rintro ⟨k, a⟩ he
  have hnodup' : (writeAll change t ws).1.keys.Nodup := keys_writeAll t ws ▸ hnodup
  have hfind : ∀ k a, t.find? k = some a → Q a := fun k a ha => h _ (mem_entries_of_find? ha)
  exact writeAll_all ws hfind hkeep k a (find?_of_mem_entries hnodup' he)

end Batches

/-! ## Related tables -/

/-- Two tables have related values under the same keys. -/
def Lifts (R : α → α → Prop) (t t' : Table κ α) : Prop :=
  List.Forall₂ (fun e e' => e'.1 = e.1 ∧ R e.2 e'.2) t.entries t'.entries

variable {R : α → α → Prop}

omit [DecidableEq κ] in
theorem Lifts.map {β : Type} {g : κ × α → β} (h : t.Lifts R t')
    (hg : ∀ k a b, R a b → g (k, b) = g (k, a)) : t'.entries.map g = t.entries.map g := by
  unfold Lifts at h
  generalize t.entries = es, t'.entries = es' at h
  induction h with
  | nil => rfl
  | @cons e e' _ _ he _ ih =>
    obtain ⟨k, a⟩ := e
    obtain ⟨k', b⟩ := e'
    obtain ⟨rfl, hab⟩ := he
    rw [List.map_cons, List.map_cons, ih, hg _ _ _ hab]

omit [DecidableEq κ] in
theorem Lifts.filter {p : α → Bool} (h : t.Lifts R t') (hp : ∀ a b, R a b → p b = p a) :
    (t'.entries.filter fun e => p e.2).map Prod.fst =
      (t.entries.filter fun e => p e.2).map Prod.fst := by
  unfold Lifts at h
  generalize t.entries = es, t'.entries = es' at h
  induction h with
  | nil => rfl
  | @cons e e' _ _ he _ ih =>
    rw [List.filter_cons, List.filter_cons, hp _ _ he.2]
    split
    · rw [List.map_cons, List.map_cons, ih, he.1]
    · exact ih

omit [DecidableEq κ] in
theorem Lifts.forall_mem {P Q : κ × α → Prop} (h : t.Lifts R t') (hP : ∀ e ∈ t.entries, P e)
    (hPQ : ∀ k a b, R a b → P (k, a) → Q (k, b)) : ∀ e ∈ t'.entries, Q e := by
  unfold Lifts at h
  generalize t.entries = es, t'.entries = es' at h hP
  induction h with
  | nil => simp
  | @cons e e' _ _ he _ ih =>
    obtain ⟨k, a⟩ := e
    obtain ⟨k', b⟩ := e'
    obtain ⟨rfl, hab⟩ := he
    rw [List.forall_mem_cons] at hP ⊢
    exact ⟨hPQ _ _ _ hab hP.1, ih hP.2⟩

theorem Lifts.of_find? (hnodup : t.keys.Nodup) (hkeys : t'.keys = t.keys)
    (h : ∀ k a b, t.find? k = some a → t'.find? k = some b → R a b) : t.Lifts R t' := by
  have hnodup' : t'.keys.Nodup := hkeys ▸ hnodup
  have hmem : ∀ k a b, (k, a) ∈ t.entries → (k, b) ∈ t'.entries → R a b := fun k a b ha hb =>
    h k a b (find?_of_mem_entries hnodup ha) (find?_of_mem_entries hnodup' hb)
  clear h hnodup hnodup'
  unfold Lifts
  unfold keys at hkeys
  generalize t.entries = es, t'.entries = es' at hkeys hmem
  induction es generalizing es' with
  | nil => rw [List.map_eq_nil_iff.1 hkeys]; exact .nil
  | cons e es ih =>
    obtain ⟨e', es', rfl, he, htail⟩ := List.map_eq_cons_iff.1 hkeys
    refine .cons ⟨he, hmem e.1 _ _ List.mem_cons_self ?_⟩ (ih es' htail fun k a b ha hb =>
      hmem k a b (List.mem_cons_of_mem _ ha) (List.mem_cons_of_mem _ hb))
    rw [← he]
    exact List.mem_cons_self

/-- The values of a table with the same keys, from those of the table. -/
theorem values_of_keys {key : α → κ} (hnodup : t.keys.Nodup) (hkeys : t'.keys = t.keys)
    (hkey : ∀ e ∈ t.entries, key e.2 = e.1) :
    t'.values = t.values.map fun a => (t'.find? (key a)).getD a := by
  have hlifts : t.Lifts (fun a b => b = (t'.find? (key a)).getD a) t' := by
    refine .of_find? hnodup hkeys fun k a b ha hb => ?_
    rw [hkey _ (mem_entries_of_find? ha), hb, Option.getD_some]
  have hentries := eq_map_of_forall₂ (f := fun e => (e.1, (t'.find? (key e.2)).getD e.2)) hlifts
    fun _ _ he => Prod.ext he.1 he.2
  rw [values, hentries, List.map_map, values, List.map_map]
  rfl

/-- What one write keeps of a value is kept by a batch. -/
theorem lifts_writeAll {β : Type} {change : ω → α → Option α} (g : α → β)
    (hchange : ∀ w a b, change w a = some b → g b = g a) (hnodup : t.keys.Nodup)
    (ws : List (κ × ω)) : t.Lifts (fun a b => g b = g a) (writeAll change t ws).1 := by
  refine .of_find? hnodup (keys_writeAll t ws) fun k a b ha hb => ?_
  have hall : ∀ k b, (writeAll change t ws).1.find? k = some b →
      ∀ a, t.find? k = some a → g b = g a := by
    refine writeAll_all ws (fun k b hb a ha => ?_) fun w _ b c hb hc a ha => ?_
    · rw [Option.some.inj (ha.symm.trans hb)]
    · rw [hchange _ _ _ hc, hb a ha]
  exact hall k b hb a ha

/-- Whatever a table holds, another one holds under the same key, changed as `R` allows. -/
def Keeps (R : α → α → Prop) (t t' : Table κ α) : Prop :=
  ∀ k a, t.find? k = some a → ∃ b, t'.find? k = some b ∧ R a b

theorem Keeps.refl (hR : ∀ a, R a a) (t : Table κ α) : t.Keeps R t := fun _ a ha => ⟨a, ha, hR a⟩

theorem Keeps.trans {t'' : Table κ α} (hR : ∀ a b c, R a b → R b c → R a c) (h : t.Keeps R t')
    (h' : t'.Keeps R t'') : t.Keeps R t'' := by
  intro k a ha
  obtain ⟨b, hb, hab⟩ := h k a ha
  obtain ⟨c, hc, hbc⟩ := h' k b hb
  exact ⟨c, hc, hR a b c hab hbc⟩

theorem keeps_insert (hR : ∀ a, R a a) (hk : k ∉ t.keys) (a : α) : t.Keeps R (t.insert k a) := by
  intro l b hb
  refine ⟨b, ?_, hR b⟩
  rw [find?_insert, if_neg, hb]
  rintro rfl
  exact hk (mem_keys_of_find? hb)

/-- Values under fresh and distinct keys go to the end in order. -/
theorem entries_foldl_insert {key : α → κ} (as : List α) : ∀ t : Table κ α,
    (t.keys ++ as.map key).Nodup →
      (as.foldl (fun t a => t.insert (key a) a) t).entries =
        t.entries ++ as.map fun a => (key a, a) := by
  induction as with
  | nil => intro t _; simp
  | cons a as ih =>
    intro t hnodup
    have hfresh : key a ∉ t.keys := by
      intro hmem
      exact List.disjoint_of_nodup_append hnodup hmem List.mem_cons_self
    have hkeys := keys_insert hfresh a
    rw [List.foldl_cons, ih (t.insert (key a) a), entries_insert hfresh, List.append_assoc]
    · rfl
    · rw [hkeys, List.append_assoc]
      exact hnodup

/-! ## Changing every value -/

section MapValues

variable {κ α β : Type}

/-- The table with every value changed. -/
def mapValues (f : α → β) (t : Table κ α) : Table κ β := ⟨t.entries.map fun e => (e.1, f e.2)⟩

variable (f : α → β) (t : Table κ α)

@[simp] theorem keys_mapValues : (t.mapValues f).keys = t.keys := by
  rw [keys, mapValues, List.map_map]
  rfl

@[simp] theorem values_mapValues : (t.mapValues f).values = t.values.map f := by
  rw [values, mapValues, List.map_map, values, List.map_map]
  rfl

@[simp] theorem size_mapValues : (t.mapValues f).size = t.size := by
  rw [size, mapValues, List.length_map, size]

/-- A table is that with every value changed if this is what it has under each key. -/
theorem Lifts.eq_mapValues {f : α → α} {t t' : Table κ α} (h : t.Lifts (fun a b => b = f a) t') :
    t' = t.mapValues f :=
  congrArg Table.mk (eq_map_of_forall₂ h fun _ _ he => Prod.ext he.1 he.2)

theorem mapValues_id (t : Table κ α) : (t.mapValues fun a => a) = t :=
  congrArg Table.mk (List.map_id _)

theorem Lifts.mapValues_eq {f : α → β} {t t' : Table κ α}
    (h : t.Lifts (fun a b => f b = f a) t') : t'.mapValues f = t.mapValues f :=
  congrArg Table.mk (h.map fun _ _ _ hab => by rw [hab])

variable [DecidableEq κ]

theorem find?_mapValues (k : κ) : (t.mapValues f).find? k = (t.find? k).map f := by
  obtain ⟨es⟩ := t
  induction es with
  | nil => rfl
  | cons e es ih =>
    obtain ⟨l, a⟩ := e
    change find? ⟨(l, f a) :: _⟩ k = _
    rw [find?_cons, find?_cons]
    split
    · rfl
    · exact ih

@[simp] theorem contains_mapValues (k : κ) : (t.mapValues f).contains k = t.contains k := by
  rw [contains, find?_mapValues, Option.isSome_map, contains]

theorem mapValues_insert (k : κ) (a : α) :
    (t.insert k a).mapValues f = (t.mapValues f).insert k (f a) := by
  rw [insert, insert, contains_mapValues]
  split
  · simp only [modify, mapValues, List.map_map]
    congr 1
    refine List.map_congr_left fun e _ => ?_
    simp only [Function.comp_apply]
    split
    · rfl
    · rfl
  · simp only [mapValues, List.map_append, List.map_cons, List.map_nil]

theorem mapValues_ofPairs (ps : List (κ × α)) :
    (ofPairs ps).mapValues f = ofPairs (ps.map fun p => (p.1, f p.2)) := by
  have hfold : ∀ t : Table κ α, (ps.foldl (fun t p => t.insert p.1 p.2) t).mapValues f =
      (ps.map fun p => (p.1, f p.2)).foldl (fun t p => t.insert p.1 p.2) (t.mapValues f) := by
    induction ps with
    | nil => exact fun _ => rfl
    | cons p ps ih =>
      intro t
      rw [List.foldl_cons, ih, mapValues_insert, List.map_cons, List.foldl_cons]
  exact hfold empty

end MapValues

end Table

end DeclGraph
