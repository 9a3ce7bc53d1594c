import DeclGraph.Document.Format
import DeclGraph.Proofs.Codecs

/-!
# Records that read back as they were written

A record is written column by column, less the columns that are absent, and read into the blank
record. It comes back if each column that was written puts back its value and each one that was
left out is a default, so that the blank record has it already. This holds of every record of a
document, whatever its strings, numbers and lists.

* `Restores`: what is read of the columns turns one record into another.
* `Schema.faithful`: a record reads back if its columns restore it from the blank record.
* `Document.ofJson_toJson`: **every document is read back from its text.**
-/

namespace DeclGraph.Json

variable {ρ α : Type}

/-! ## Columns -/

/-- Reading what is written of `r` in the columns turns a record into `r`. -/
inductive Restores (r : ρ) : ρ → List (Column ρ) → Prop
  | nil : Restores r r []
  /-- A column that is left out. -/
  | absent {q : ρ} {c : Column ρ} {cs : List (Column ρ)}
      (hwrite : ∀ depth, c.write depth r = none) (hrequired : c.required = false)
      (h : Restores r q cs) : Restores r q (c :: cs)
  /-- A column that is written. A blank stands before its value. -/
  | present {q : ρ} {c : Column ρ} {cs : List (Column ρ)} (put : ρ → ρ)
      (hread : ∀ depth, ∃ w, c.write depth r = some w ∧
        ∀ rest, EndsNumber rest → c.read (' ' :: (w ++ rest)) = .ok (put, rest))
      (h : Restores r (put q) cs) : Restores r q (c :: cs)

namespace Restores

variable {r q : ρ} {cs : List (Column ρ)} {c : Codec α} {get : ρ → α} {set : α → ρ → ρ}
  {name : String} {required : Bool}

theorem written (hc : c.Faithful) (hget : c.isAbsent (get r) = false)
    (h : Restores r (set (get r) q) cs) : Restores r q (.make name c get set required :: cs) := by
  refine .present (set (get r)) (fun depth => ⟨c.write depth (get r), ?_, ?_⟩) h
  · simp [Column.make, hget]
  · intro rest hrest
    have hblank : c.read (' ' :: (c.write depth (get r) ++ rest)) =
        c.read (c.write depth (get r) ++ rest) := by
      rw [← hc.read_blanks, skipBlanks_of_isBlank rfl, hc.read_blanks]
    simp [Column.make, hblank, hc.read_write depth _ rest hrest, Except.map]

/-- A value that may be missing, where the record that is read into misses it. -/
theorem optional {get : ρ → Option α} {set : Option α → ρ → ρ} (hc : c.Faithful)
    (hn : c.NeverNull) (hset : set none q = q) (h : Restores r (set (get r) q) cs) :
    Restores r q (.make name (.option c) get set :: cs) := by
  cases hget : get r with
  | some a => exact written (hc.option hn) (by rw [hget]; rfl) h
  | none =>
    rw [hget, hset] at h
    exact .absent (fun depth => by simp [Column.make, hget, Codec.option]) rfl h

end Restores

/-- A column is found by its name. -/
theorem find?_column {cs : List (Column ρ)} (hcs : (cs.map (·.name)).Nodup) {c : Column ρ}
    (hc : c ∈ cs) : cs.find? (·.name = c.name) = some c := by
  induction cs with
  | nil => cases hc
  | cons d cs ih =>
    obtain ⟨hd, hcs⟩ := List.nodup_cons.mp hcs
    rcases List.mem_cons.mp hc with rfl | hc
    · simp
    · have hne : d.name ≠ c.name := fun h => hd (List.mem_map.mpr ⟨c, hc, h.symm⟩)
      simpa [hne] using ih hcs hc

/-! ## Keys -/

theorem nextKey_blockTail_nil (depth : Nat) (isFirst : Bool) (rest : List Char) :
    nextKey isFirst (blockTail '}' depth isFirst [] ++ rest) = .ok (false, rest) := by
  have hend : isBlank '}' = false := rfl
  cases isFirst <;> simp [nextKey, blockTail, skipBlanks_line, skipBlanks_cons, hend]

theorem nextKey_blockTail_cons (depth : Nat) (isFirst : Bool) (w : List Char)
    (parts : List (List Char)) (rest : List Char) :
    nextKey isFirst (blockTail '}' depth isFirst (('"' :: w) :: parts) ++ rest) =
      .ok (true, w ++ (blockTail '}' depth false parts ++ rest)) := by
  have hcomma : isBlank ',' = false := rfl
  have hquote : isBlank '"' = false := rfl
  cases isFirst <;>
    simp [nextKey, blockTail, skipBlanks_line, skipBlanks_cons, hcomma, hquote]

theorem readColon_cons (s : List Char) : readColon (':' :: s) = .ok s := by
  simp [readColon, skipBlanks_cons, isBlank]

/-! ## Records -/

namespace Schema

variable {schema : Schema ρ} {r : ρ}

/-- What is written of a column, with its key. -/
def part? (depth : Nat) (r : ρ) (c : Column ρ) : Option (List Char) :=
  (c.write (depth + 1) r).map (writeText c.name.toList ++ [':', ' '] ++ ·)

/-- The columns `cs` come last in the schema, and the columns before them have been read under
the keys `seen`, apart from such as need not be there. -/
structure Left (schema : Schema ρ) (seen : List String) (cs : List (Column ρ)) : Prop where
  names : (schema.columns.map (·.name)).Nodup
  suffix : cs <:+ schema.columns
  fresh : ∀ c ∈ cs, c.name ∉ seen
  required : ∀ c ∈ schema.columns, c.required = true → c.name ∈ seen ∨ c ∈ cs

namespace Left

variable {seen : List String} {c : Column ρ} {cs : List (Column ρ)}

theorem start (hnames : (schema.columns.map (·.name)).Nodup) :
    schema.Left [] schema.columns where
  names := hnames
  suffix := List.suffix_rfl
  fresh _ _ := List.not_mem_nil
  required _ hc _ := .inr hc

theorem skip (h : schema.Left seen (c :: cs)) (hc : c.required = false) :
    schema.Left seen cs where
  names := h.names
  suffix := (List.suffix_cons c cs).trans h.suffix
  fresh d hd := h.fresh d (List.mem_cons_of_mem c hd)
  required d hd hreq := by
    refine (h.required d hd hreq).imp_right fun hmem => ?_
    rcases List.mem_cons.mp hmem with rfl | hmem
    · rw [hc] at hreq; cases hreq
    · exact hmem

theorem read (h : schema.Left seen (c :: cs)) : schema.Left (c.name :: seen) cs where
  names := h.names
  suffix := (List.suffix_cons c cs).trans h.suffix
  fresh d hd := by
    have hnames := h.names.sublist (h.suffix.sublist.map (·.name))
    have hne : d.name ≠ c.name := fun heq =>
      (List.nodup_cons.mp hnames).1 (List.mem_map.mpr ⟨d, hd, heq⟩)
    simpa [hne] using h.fresh d (List.mem_cons_of_mem c hd)
  required d hd hreq := by
    rcases h.required d hd hreq with hseen | hmem
    · exact .inl (List.mem_cons_of_mem _ hseen)
    · rcases List.mem_cons.mp hmem with rfl | hmem
      · exact .inl List.mem_cons_self
      · exact .inr hmem

/-- No required column is missing once all columns have been passed. -/
theorem finish (h : schema.Left seen []) (q : ρ) : schema.finish seen q = .ok q := by
  have hnone : schema.columns.find? (fun c => c.required && !seen.contains c.name) = none := by
    rw [List.find?_eq_none]
    intro c hc hmissing
    simp only [Bool.and_eq_true, Bool.not_eq_true', List.contains_eq_mem,
      decide_eq_false_iff_not] at hmissing
    exact (h.required c hc hmissing.1).elim hmissing.2 List.not_mem_nil
  simp only [Schema.finish, hnone]

end Left

/-- The entries of the columns that are left turn the record into the one that was written. -/
theorem readEntries_blockTail (depth : Nat) {q : ρ} {cs : List (Column ρ)}
    (hcs : Restores r q cs) {seen : List String} (hleft : schema.Left seen cs)
    (rest : List Char) {steps : Nat} (hsteps : (cs.filterMap (part? depth r)).length < steps)
    (isFirst : Bool) :
    schema.readEntries steps isFirst seen q
        (blockTail '}' depth isFirst (cs.filterMap (part? depth r)) ++ rest) = .ok (r, rest) := by
  induction hcs generalizing seen steps isFirst with
  | nil =>
    obtain ⟨steps, rfl⟩ := Nat.exists_eq_succ_of_ne_zero (Nat.ne_of_gt hsteps)
    simp [readEntries, nextKey_blockTail_nil, hleft.finish, bind, Except.bind, pure, Except.pure]
  | absent hwrite hrequired _ ih =>
    rw [List.filterMap_cons_none (by simp [part?, hwrite])] at hsteps ⊢
    exact ih (hleft.skip hrequired) hsteps isFirst
  | @present q c cs put hread _ ih =>
    obtain ⟨w, hw, hread⟩ := hread (depth + 1)
    have hpart : part? depth r c =
        some ('"' :: (c.name.toList.flatMap writeChar ++ '"' :: ':' :: ' ' :: w)) := by
      simp [part?, hw, writeText]
    rw [List.filterMap_cons_some hpart] at hsteps ⊢
    obtain ⟨steps, rfl⟩ := Nat.exists_eq_succ_of_ne_zero (Nat.ne_of_gt (Nat.zero_lt_of_lt hsteps))
    have hfind := find?_column hleft.names (hleft.suffix.subset List.mem_cons_self)
    have hfresh := hleft.fresh c List.mem_cons_self
    have hput := hread _ (endsNumber_blockTail '}' depth (cs.filterMap (part? depth r)) rest)
    have htail := ih hleft.read (Nat.lt_of_succ_lt_succ hsteps) false
    simp [readEntries, nextKey_blockTail_cons, readChars_writeText, hfind, hfresh, readColon_cons,
      hput, htail, bind, Except.bind]

/-- A schema whose columns restore every record. -/
theorem faithful (hnames : (schema.columns.map (·.name)).Nodup)
    (h : ∀ r, Restores r schema.blank schema.columns) : schema.codec.Faithful where
  read_blanks s := by simp only [codec, Schema.read, skipBlanks_skipBlanks]
  written depth r := ⟨'{', _, writeBlock_eq .., rfl, by decide⟩
  read_write depth r rest _ := by
    have hopen : isBlank '{' = false := rfl
    change schema.read (writeBlock '{' '}' depth (schema.columns.filterMap (part? depth r)) ++
      rest) = _
    simp only [Schema.read, writeBlock_eq, List.cons_append, skipBlanks_cons hopen]
    exact readEntries_blockTail depth (h r) (Left.start hnames) rest (length_lt_blockTail ..) true

/-- A text that holds a record and nothing else. -/
theorem ofText_toText (h : schema.codec.Faithful) (r : ρ) :
    schema.ofText (schema.toText r) = .ok r := by
  have hread : schema.codec.read (schema.codec.write 0 r) = .ok (r, []) := by
    simpa using h.read_write 0 r [] endsNumber_nil
  change schema.read (schema.write 0 r) = .ok (r, []) at hread
  simp [ofText, toText, hread, skipBlanks, bind, Except.bind, pure, Except.pure]

end Schema

end DeclGraph.Json

namespace DeclGraph

open Json Codec

theorem Kind.faithful_codec : Kind.codec.Faithful :=
  faithful_choice fun k => by cases k <;> decide

theorem LinkRecord.faithful_schema : LinkRecord.schema.codec.Faithful :=
  Schema.faithful (by decide) fun _ =>
    .written faithful_text rfl <| .optional faithful_text neverNull_text rfl <|
      .written faithful_bool rfl .nil

theorem MemberRecord.faithful_schema : MemberRecord.schema.codec.Faithful :=
  Schema.faithful (by decide) fun _ =>
    .written faithful_text rfl <| .written faithful_text rfl <|
      .optional faithful_word neverNull_natural_map rfl <|
      .optional faithful_byte neverNull_natural_map rfl <|
      .optional faithful_word neverNull_natural_map rfl <|
      .written faithful_bool rfl <|
      .optional faithful_long neverNull_natural_map rfl <|
      .optional faithful_word neverNull_natural_map rfl <|
      .optional faithful_text neverNull_text rfl <| .written faithful_bool rfl .nil

theorem TypeRecord.faithful_schema : TypeRecord.schema.codec.Faithful :=
  Schema.faithful (by decide) fun _ =>
    .written faithful_text rfl <| .written faithful_text rfl <|
      .written Kind.faithful_codec rfl <|
      .optional faithful_word neverNull_natural_map rfl <|
      .written faithful_bool rfl <| .written faithful_text rfl <|
      .optional faithful_word neverNull_natural_map rfl <|
      .written LinkRecord.faithful_schema.list rfl <|
      .written LinkRecord.faithful_schema.list rfl <|
      .written MemberRecord.faithful_schema.list rfl .nil

theorem TypedefRecord.faithful_schema : TypedefRecord.schema.codec.Faithful :=
  Schema.faithful (by decide) fun _ =>
    .written faithful_text rfl <| .written faithful_text rfl <| .written faithful_text rfl <|
      .optional faithful_text neverNull_text rfl <| .written faithful_bool rfl .nil

namespace Document

theorem faithful_schema : schema.codec.Faithful :=
  Schema.faithful (by decide) fun _ =>
    .written TypeRecord.faithful_schema.list rfl <|
      .written TypedefRecord.faithful_schema.list rfl .nil

/-- **Every document is read back from its text.** -/
theorem ofJson_toJson (d : Document) : ofJson d.toJson = .ok d :=
  Schema.ofText_toText faithful_schema d

end Document

end DeclGraph
