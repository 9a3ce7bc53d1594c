/-!
# Tables in insertion order

A table maps keys to values and lists its entries in the order in which their keys came in.
Writing a key again replaces its value in place.

* `find?_insert`, `find?_modify`: what is found after a write.
* `keys_modify`: changing a value moves no key.
-/

namespace DeclGraph

/-- Entries in insertion order. -/
structure Table (κ α : Type) where
  entries : List (κ × α) := []
  deriving DecidableEq, Repr

namespace Table

variable {κ α : Type} [DecidableEq κ]

/-- The table without entries. -/
def empty : Table κ α := ⟨[]⟩

/-- The value of the first entry with key `k`. -/
def find? (t : Table κ α) (k : κ) : Option α :=
  (t.entries.find? fun e => e.1 = k).map Prod.snd

/-- Whether `k` has an entry. -/
def contains (t : Table κ α) (k : κ) : Bool := (t.find? k).isSome

/-- The number of entries. -/
def size (t : Table κ α) : Nat := t.entries.length

/-- The keys in insertion order. -/
def keys (t : Table κ α) : List κ := t.entries.map Prod.fst

/-- The values in insertion order. -/
def values (t : Table κ α) : List α := t.entries.map Prod.snd

/-- Changes the value of the entries with key `k`. -/
def modify (t : Table κ α) (k : κ) (f : α → α) : Table κ α :=
  ⟨t.entries.map fun e => if e.1 = k then (e.1, f e.2) else e⟩

/-- Writes a value: in place if `k` has an entry, else at the end. -/
def insert (t : Table κ α) (k : κ) (a : α) : Table κ α :=
  if t.contains k then t.modify k fun _ => a else ⟨t.entries ++ [(k, a)]⟩

/-- Adds a value to the list that a key has, empty to begin with. -/
def push (t : Table κ (List α)) (k : κ) (a : α) : Table κ (List α) :=
  t.insert k ((t.find? k).getD [] ++ [a])

/-- The list of a key. -/
def list (t : Table κ (List α)) (k : κ) : List α := (t.find? k).getD []

/-- The table that pairs make, a later one replacing an earlier one of the same key. -/
def ofPairs (ps : List (κ × α)) : Table κ α := ps.foldl (fun t p => t.insert p.1 p.2) empty

theorem find?_cons (m k : κ) (a : α) (es : List (κ × α)) :
    (⟨(m, a) :: es⟩ : Table κ α).find? k = if m = k then some a else find? ⟨es⟩ k := by
  simp only [find?, List.find?_cons]
  by_cases h : m = k <;> simp [h]

theorem mem_keys_of_find? {t : Table κ α} {k : κ} {a : α} (h : t.find? k = some a) :
    k ∈ t.keys := by
  obtain ⟨e, he, _⟩ := Option.map_eq_some_iff.1 h
  have h1 := List.find?_some he
  simp only [decide_eq_true_eq] at h1
  exact List.mem_map.2 ⟨e, List.mem_of_find?_eq_some he, h1⟩

theorem find?_modify (t : Table κ α) (k l : κ) (f : α → α) :
    (t.modify k f).find? l = if l = k then (t.find? l).map f else t.find? l := by
  obtain ⟨es⟩ := t
  induction es with
  | nil => simp [modify, find?]
  | cons e es ih =>
    obtain ⟨m, a⟩ := e
    simp only [modify, List.map_cons] at ih ⊢
    by_cases hm : m = k
    · subst hm
      simp only [if_true, find?_cons, ih]
      by_cases hl : l = m
      · simp [hl]
      · simp [hl, Ne.symm hl]
    · simp only [hm, if_false, find?_cons, ih]
      by_cases hl : l = k
      · subst hl; simp [hm]
      · simp [hl]

@[simp] theorem keys_modify (t : Table κ α) (k : κ) (f : α → α) :
    (t.modify k f).keys = t.keys := by
  simp only [keys, modify, List.map_map]
  congr 1
  funext e
  simp only [Function.comp_apply]
  split <;> rfl

theorem find?_append (es : List (κ × α)) (k l : κ) (a : α) :
    (⟨es ++ [(k, a)]⟩ : Table κ α).find? l =
      ((⟨es⟩ : Table κ α).find? l).or (if l = k then some a else none) := by
  induction es with
  | nil =>
    rw [List.nil_append, find?_cons]
    by_cases h : k = l
    · simp [h, find?]
    · simp [h, Ne.symm h, find?]
  | cons e es ih =>
    obtain ⟨m, b⟩ := e
    simp only [List.cons_append, find?_cons, ih]
    by_cases h : m = l <;> simp [h]

theorem find?_insert (t : Table κ α) (k l : κ) (a : α) :
    (t.insert k a).find? l = if l = k then some a else t.find? l := by
  unfold insert contains
  split
  · next h =>
    rw [find?_modify]
    by_cases hl : l = k
    · subst hl
      obtain ⟨b, hb⟩ := Option.isSome_iff_exists.1 h
      simp [hb]
    · simp [hl]
  · next h =>
    rw [find?_append]
    by_cases hl : l = k
    · subst hl; simp_all
    · simp [hl]

end Table

end DeclGraph
