import Mathlib.Data.List.Chain
import Mathlib.Data.List.DropRight
import DeclGraph.Proofs.Numerals

/-!
# The grammar of type strings

A type string is written as leading words, a base name, trailing marks and dimensions, with blanks
between them. Taking it apart goes over it three times, from both ends, and each time stops where it
should: what has been written is what is found.

* `Declarator.Written`: a type string by its parts, and `Written.Proper`: which parts can be told
  from each other.
* `Declarator.takeDimensions_dimensionText`, `Declarator.marked_markText`,
  `Declarator.leads_leadText`: each time, what was written comes off, and nothing else.
* `Declarator.parse_text`: **parsing inverts writing**.
-/

namespace DeclGraph

open Text Name

namespace Declarator

/-! ## Type strings by their parts -/

/-- A word that may stand before a base name. -/
inductive LeadWord
  | const | volatile | typename | keyword (k : Keyword)
  deriving DecidableEq, Repr

namespace LeadWord

/-- The word itself. -/
def text : LeadWord → String
  | const => "const"
  | volatile => "volatile"
  | typename => "typename"
  | keyword k => k.word

/-- The keyword that the word is, if it is one. -/
def keyword? : LeadWord → Option Keyword
  | keyword k => some k
  | _ => none

/-- What the parser takes the word for. -/
def lead : LeadWord → Lead
  | const => .const
  | volatile | typename => .qualifier
  | keyword k => .keyword k

theorem letters (w : LeadWord) : w.text.toList ≠ [] ∧
    ∀ c ∈ w.text.toList, isBlank c = false ∧ c ≠ '(' := by
  have hrun : w.text.toList ≠ [] ∧
      (w.text.toList.all fun c => !isBlank c && c != '(') = true := by
    rcases w with _ | _ | _ | k
    · decide
    · decide
    · decide
    · cases k <;> decide
  simpa using hrun

end LeadWord

/-- A qualifier that may follow a base name. -/
inductive Qualifier
  | const | volatile | ptr32 | ptr64 | unaligned | restrict
  deriving DecidableEq, Repr

/-- The word itself. -/
def Qualifier.text : Qualifier → String
  | const => "const"
  | volatile => "volatile"
  | ptr32 => "__ptr32"
  | ptr64 => "__ptr64"
  | unaligned => "__unaligned"
  | restrict => "__restrict"

/-- What may follow a base name, up to the dimensions. -/
inductive Mark
  | pointer | reference | rvalue | qualifier (q : Qualifier)
  deriving DecidableEq, Repr

namespace Mark

/-- The sign or the word. -/
def text : Mark → String
  | pointer => "*"
  | reference => "&"
  | rvalue => "&&"
  | qualifier q => q.text

/-- Whether the mark is a word. -/
def isWord : Mark → Bool
  | qualifier _ => true
  | _ => false

/-- Whether the mark makes a reference. -/
def isReference : Mark → Bool
  | reference | rvalue => true
  | _ => false

theorem letters (m : Mark) : m.text.toList ≠ [] ∧
    ∀ c ∈ m.text.toList, isBlank c = false ∧ c ≠ '(' ∧ c ≠ ']' := by
  have hrun : m.text.toList ≠ [] ∧
      (m.text.toList.all fun c => !isBlank c && (c != '(' && c != ']')) = true := by
    rcases m with _ | _ | _ | q
    · decide
    · decide
    · decide
    · cases q <;> decide
  simpa using hrun

end Mark

/-- Leading words, with the blanks after each. -/
def leadText (ls : List (LeadWord × List Char)) : List Char :=
  ls.flatMap fun p => p.1.text.toList ++ p.2

/-- Trailing marks, with the blanks before each. -/
def markText (ms : List (List Char × Mark)) : List Char :=
  ms.flatMap fun p => p.1 ++ p.2.text.toList

/-- Dimensions in brackets, with the blanks before each. -/
def dimensionText (ds : List (List Char × UInt32)) : List Char :=
  ds.flatMap fun p => p.1 ++ '[' :: (decimal p.2.toNat ++ [']'])

/-- A type string by its parts. -/
structure Written where
  /-- The blanks before everything. -/
  before : List Char := []
  /-- The leading words, with the blanks after each. -/
  leads : List (LeadWord × List Char) := []
  base : List Char
  /-- The trailing marks, with the blanks before each. -/
  marks : List (List Char × Mark) := []
  /-- The dimensions, with the blanks before each. -/
  dimensions : List (List Char × UInt32) := []
  /-- The blanks after everything. -/
  after : List Char := []

/-- A letter that an identifier may have. -/
def isName (c : Char) : Bool := isAlphanumeric c || c == '_'

/-- A name that can be told from what stands around it. -/
structure IsBase (b : List Char) : Prop where
  nonempty : b ≠ []
  fresh : Fresh b
  endsFresh : EndsFresh b
  plain : ∀ c ∈ b, c ≠ '(' ∧ c ≠ ')'
  ends : ∀ c ∈ b.getLast?, c ≠ ']' ∧ c ≠ '*' ∧ c ≠ '&'
  /-- If it ends in a qualifier, then an identifier runs into that. -/
  unqualified : ∀ q : Qualifier, q.text.toList <:+ b →
    (b.rdrop q.text.toList.length).getLast?.any isName = true
  /-- If it starts with a leading word, then there is no blank after that. -/
  unled : ∀ w : LeadWord, w.text.toList <+: b →
    (b.drop w.text.toList.length).head?.any isBlank = false

namespace Written

variable (w : Written)

/-- The characters of the type string. -/
def chars : List Char :=
  w.before ++ (leadText w.leads ++ w.base ++ markText w.marks ++ dimensionText w.dimensions) ++
    w.after

/-- The type string. -/
def text : String := String.ofList w.chars

/-- The parts can be told from each other: blanks are where they have to be, after each leading word
and before a qualifier that follows the base or another qualifier. -/
structure Proper : Prop where
  base : IsBase w.base
  before : ∀ c ∈ w.before, isBlank c = true
  after : ∀ c ∈ w.after, isBlank c = true
  leads : ∀ p ∈ w.leads, p.2 ≠ [] ∧ ∀ c ∈ p.2, isBlank c = true
  marks : ∀ p ∈ w.marks, ∀ c ∈ p.1, isBlank c = true
  dimensions : ∀ p ∈ w.dimensions, ∀ c ∈ p.1, isBlank c = true
  afterBase : ∀ p ∈ w.marks.head?, p.2.isWord = true → p.1 ≠ []
  afterWord : w.marks.IsChain fun p q => p.2.isWord = true → q.2.isWord = true → q.1 ≠ []

/-- What the parts say. -/
def declarator : Declarator where
  base := String.ofList w.base
  pointerDepth := clampByte (w.marks.countP (·.2 = .pointer))
  isReference := w.marks.any (·.2.isReference)
  isConst := w.marks.any (·.2 = .qualifier .const) || w.leads.any (·.1 = .const)
  dimensions := w.dimensions.map (·.2)
  keyword := (w.leads.filterMap (·.1.keyword?)).getLast?
  text := w.text

end Written

/-! ## Dimensions -/

theorem dimensionText_eq (ds : List (List Char × UInt32)) :
    dimensionText ds = bracketText (ds.map fun p => (p.1, decimal p.2.toNat)) := by
  rw [dimensionText, bracketText, List.flatMap_map]

/-- **All dimensions come off the end**, and nothing else. -/
theorem takeDimensions_dimensionText (ds : List (List Char × UInt32))
    (hds : ∀ p ∈ ds, ∀ c ∈ p.1, isBlank c = true) {rest : List Char}
    (hrest : (dropBlanks rest).head? ≠ some ']') (found : List UInt32) :
    takeDimensions found (dropBlanks ((dimensionText ds).reverse ++ rest)) =
      (ds.map (·.2) ++ found, dropBlanks rest) := by
  have hopen : ∀ k, '[' ∉ decimal k := fun _ hmem =>
    absurd (isDigit_of_mem_decimal hmem) (by decide)
  rw [dimensionText_eq, takeDimensions_bracketText (fun p hp => ?_) hrest, List.map_map]
  · simp only [Function.comp_def, dimension_decimal]
  · obtain ⟨d, hd, rfl⟩ := List.mem_map.1 hp
    exact ⟨hds d hd, hopen _⟩

/-! ## Words of a table -/

/-- Words that are followed by something else are told apart. -/
theorem word_unique {P : Char → Bool} {w w' x x' : List Char} {c c' : Char}
    (hw : ∀ a ∈ w, P a = true) (hw' : ∀ a ∈ w', P a = true) (hc : P c = false) (hc' : P c' = false)
    (h : w' ++ c' :: x' = w ++ c :: x) : w' = w ∧ c' :: x' = c :: x := by
  have htake : ∀ {v y : List Char} {d : Char}, (∀ a ∈ v, P a = true) → P d = false →
      (v ++ d :: y).takeWhile P = v := by
    intro v y d hv hd
    rw [List.takeWhile_append_of_pos hv, List.takeWhile_cons_of_neg (by simp [hd]),
      List.append_nil]
  have hsame : w' = w := by rw [← htake hw' hc' (y := x'), h, htake hw hc]
  subst hsame
  exact ⟨rfl, List.append_cancel_left h⟩

theorem findSome?_congr {α β : Type} {f g : α → Option β} {as : List α}
    (h : ∀ a ∈ as, f a = g a) : as.findSome? f = as.findSome? g := by
  induction as with
  | nil => rfl
  | cons a as ih =>
    rw [List.forall_mem_cons] at h
    rw [List.findSome?_cons, List.findSome?_cons, h.1, ih h.2]

/-! ## Trailing marks -/

theorem isName_of_isBlank {c : Char} (hc : isBlank c = true) : isName c = false := by
  rw [isName, isAlphanumeric_of_isBlank hc, Bool.false_or, beq_eq_false_iff_ne]
  rintro rfl
  exact absurd hc (by decide)

/-- What the marks at the end of a reversed text come to, and what is before them. -/
structure Marked (rev : List Char) (pointers : Nat) (isReference isConst : Bool)
    (rest : List Char) : Prop where
  pointers : (suffixes rev).1.count .pointer = pointers
  reference : (suffixes rev).1.contains .reference = isReference
  const : (suffixes rev).1.contains .const = isConst
  rest : (suffixes rev).2 = rest

section Marks

variable {rev r rest : List Char} {n : Nat} {isReference isConst : Bool} {m : Suffix}

theorem suffixes_of_some (h : suffix? rev = some (m, r)) :
    suffixes rev = (m :: (suffixes r).1, (suffixes r).2) := by
  rw [suffixes]
  split
  · next m' r' h' =>
    obtain ⟨rfl, rfl⟩ := Prod.mk.inj (Option.some.inj (h.symm.trans h'))
    rfl
  · next h' => cases h.symm.trans h'

theorem suffixes_of_none (h : suffix? rev = none) : suffixes rev = ([], rev) := by
  rw [suffixes]
  split
  · next m' r' h' => cases h.symm.trans h'
  · rfl

theorem marked_of_none (h : suffix? rev = none) : Marked rev 0 false false rev := by
  constructor <;> rw [suffixes_of_none h] <;> rfl

theorem Marked.of_some (h : Marked r n isReference isConst rest) (hm : suffix? rev = some (m, r)) :
    Marked rev (n + if m = .pointer then 1 else 0) (isReference || m = .reference)
      (isConst || m = .const) rest := by
  obtain ⟨rfl, rfl, rfl, rfl⟩ := h
  constructor <;> rw [suffixes_of_some hm]
  · rw [List.count_cons]
    simp
  · cases m <;> simp
  · cases m <;> simp

/-- Two marks `&` come off as one or one by one, which makes no difference. -/
theorem marked_reference (r : List Char) :
    Marked ('&' :: r) ((suffixes (dropBlanks r)).1.count .pointer) true
      ((suffixes (dropBlanks r)).1.contains .const) (suffixes (dropBlanks r)).2 := by
  induction hn : r.length using Nat.strong_induction_on generalizing r with
  | _ k ih =>
    by_cases hr : r.head? = some '&'
    · obtain ⟨r', rfl⟩ := List.head?_eq_some_iff.1 hr
      have hfresh : Fresh ('&' :: r') := rfl
      obtain ⟨hpointers, -, hconst, hrest⟩ := ih _ (by rw [← hn]; simp) r' rfl
      rw [hfresh.dropBlanks, hpointers, hconst, hrest]
      have hmarked : Marked (dropBlanks r') _ _ _ _ := ⟨rfl, rfl, rfl, rfl⟩
      have hsuffix : suffix? ('&' :: '&' :: r') = some (.reference, dropBlanks r') := rfl
      simpa using hmarked.of_some hsuffix
    · have hsuffix : suffix? ('&' :: r) = some (.reference, dropBlanks r) := by
        rw [suffix?]
        rintro r' rfl
        exact hr rfl
      have hmarked : Marked (dropBlanks r) _ _ _ _ := ⟨rfl, rfl, rfl, rfl⟩
      simpa using hmarked.of_some hsuffix

theorem Marked.reference_cons (h : Marked (dropBlanks r) n isReference isConst rest) :
    Marked ('&' :: r) n true isConst rest := by
  obtain ⟨rfl, rfl, rfl, rfl⟩ := h
  exact marked_reference r

/-- What the parser takes a qualifier for. -/
def Qualifier.suffix : Qualifier → Suffix
  | const => .const
  | _ => .qualifier

theorem Qualifier.mem_trailingWords (q : Qualifier) : (q.text, q.suffix) ∈ trailingWords := by
  cases q <;> simp [trailingWords, Qualifier.text, Qualifier.suffix]

theorem isName_of_mem_trailingWords {word : String} {mark : Suffix}
    (h : (word, mark) ∈ trailingWords) : ∀ a ∈ word.toList.reverse, isName a = true := by
  have hrun : (trailingWords.all fun p => p.1.toList.reverse.all isName) = true := by
    decide +kernel
  exact List.all_eq_true.1 (List.all_eq_true.1 hrun (word, mark) h)

/-- A qualifier comes off the end where no identifier runs into it. -/
theorem suffix?_qualifier (q : Qualifier) {c : Char} (hc : isName c = false) (x : List Char) :
    suffix? (q.text.toList.reverse ++ c :: x) = some (q.suffix, dropBlanks (c :: x)) := by
  have hletters : ∀ a ∈ q.text.toList.reverse, isName a = true :=
    isName_of_mem_trailingWords q.mem_trailingWords
  have hhead : ∀ d, isName d = false →
      (q.text.toList.reverse ++ c :: x).head? ≠ some d := by
    intro d hd hhead
    have hne : q.text.toList.reverse ≠ [] := by cases q <;> decide
    rw [List.head?_append_of_ne_nil _ hne] at hhead
    rw [hletters d (List.mem_of_head? hhead)] at hd
    cases hd
  -- no other word of the table can end there
  have hread : ∀ p ∈ trailingWords,
      (beforeWord? p.1 (q.text.toList.reverse ++ c :: x)).map (p.2, ·) =
        if p.1 = q.text then some (p.2, dropBlanks (c :: x)) else none := by
    intro p hp
    split
    · next heq =>
      rw [Option.map_eq_some_iff]
      exact ⟨_, beforeWord?_eq_some_iff.2 ⟨c, x, by rw [heq], hc, rfl⟩, rfl⟩
    · next hne =>
      rw [Option.map_eq_none_iff, Option.eq_none_iff_forall_not_mem]
      intro r hr
      obtain ⟨c', x', heq, hc', -⟩ := beforeWord?_eq_some_iff.1 hr
      obtain ⟨hsame, -⟩ := word_unique (isName_of_mem_trailingWords hp) hletters hc' hc heq
      exact hne (String.toList_inj.1 (List.reverse_injective hsame)).symm
  rw [suffix?_of_ne (hhead '&' (by decide +kernel)) (hhead '*' (by decide +kernel)),
    findSome?_congr hread]
  cases q <;> simp [trailingWords, Qualifier.text, Qualifier.suffix]

theorem reverse_markText_concat (ms : List (List Char × Mark)) (gap : List Char) (m : Mark) :
    (markText (ms ++ [(gap, m)])).reverse =
      m.text.toList.reverse ++ (gap.reverse ++ (markText ms).reverse) := by
  simp [markText]

/-- Before a qualifier there are blanks, or else a sign. -/
theorem exists_before_qualifier {ms : List (List Char × Mark)} {gap : List Char} {q : Qualifier}
    (hgap : ∀ c ∈ gap, isBlank c = true)
    (hbase : ∀ p ∈ (ms ++ [(gap, Mark.qualifier q)]).head?, p.2.isWord = true → p.1 ≠ [])
    (hword : ∀ p ∈ ms.getLast?, p.2.isWord = true → gap ≠ []) (rest : List Char) :
    ∃ c x, gap.reverse ++ ((markText ms).reverse ++ rest) = c :: x ∧ isName c = false := by
  cases hrev : gap.reverse with
  | cons c x =>
    have hmem : c ∈ gap := List.mem_reverse.1 (by simp [hrev])
    exact ⟨c, _, rfl, isName_of_isBlank (hgap c hmem)⟩
  | nil =>
    obtain rfl := List.reverse_eq_nil_iff.1 hrev
    rcases List.eq_nil_or_concat ms with rfl | ⟨ms, ⟨gap, m⟩, rfl⟩
    · exact absurd rfl (hbase _ rfl rfl)
    have hm : m.isWord = false := by
      rw [Bool.eq_false_iff]
      exact fun hm => hword (gap, m) (by simp) hm rfl
    rw [List.nil_append, List.concat_eq_append, reverse_markText_concat]
    cases m with
    | qualifier q => cases hm
    | pointer => exact ⟨'*', _, rfl, by decide +kernel⟩
    | reference => exact ⟨'&', _, rfl, by decide +kernel⟩
    | rvalue => exact ⟨'&', _, rfl, by decide +kernel⟩

/-- **All marks come off the end**, and nothing else. -/
theorem marked_markText (ms : List (List Char × Mark))
    (hblank : ∀ p ∈ ms, ∀ c ∈ p.1, isBlank c = true)
    (hbase : ∀ p ∈ ms.head?, p.2.isWord = true → p.1 ≠ [])
    (hword : ms.IsChain fun p q => p.2.isWord = true → q.2.isWord = true → q.1 ≠ [])
    (hrest : Fresh rest) (hnone : suffix? rest = none) :
    Marked (dropBlanks ((markText ms).reverse ++ rest)) (ms.countP (·.2 = .pointer))
      (ms.any (·.2.isReference)) (ms.any (·.2 = .qualifier .const)) rest := by
  induction ms using List.reverseRecOn with
  | nil =>
    rw [markText, List.flatMap_nil, List.reverse_nil, List.nil_append, hrest.dropBlanks]
    exact marked_of_none hnone
  | append_singleton ms p ih =>
    obtain ⟨gap, m⟩ := p
    obtain ⟨hchain, -, hlast⟩ := List.isChain_append.1 hword
    have hgap : ∀ c ∈ gap, isBlank c = true := hblank (gap, m) (by simp)
    have hmarks := ih (fun p hp => hblank p (List.mem_append_left _ hp))
      (fun p hp => hbase p (by
        rw [List.head?_append, Option.mem_def.1 hp]
        rfl)) hchain
    rw [← dropBlanks_reverse_append hgap] at hmarks
    have hletter : Fresh ((markText (ms ++ [(gap, m)])).reverse ++ rest) := by
      rw [reverse_markText_concat, List.append_assoc]
      exact fresh_append (fresh_of_forall fun c hc => (m.letters.2 c (List.mem_reverse.1 hc)).1)
        (by simpa using m.letters.1) _
    rw [hletter.dropBlanks, reverse_markText_concat, List.append_assoc, List.append_assoc,
      List.countP_append, List.any_append, List.any_append]
    cases m with
    | pointer => exact hmarks.of_some (m := .pointer) rfl
    | reference => simpa [Mark.text, Mark.isReference] using hmarks.reference_cons
    | rvalue =>
      have hamp : Fresh ('&' :: (gap.reverse ++ ((markText ms).reverse ++ rest))) := rfl
      have hone := hmarks.reference_cons
      rw [← hamp.dropBlanks] at hone
      simpa [Mark.text, Mark.isReference] using hone.reference_cons
    | qualifier q =>
      obtain ⟨c, x, hstart, hc⟩ := exists_before_qualifier hgap hbase
        (fun p hp hw => hlast p hp _ rfl hw rfl) rest
      rw [hstart] at hmarks ⊢
      have hsuffix := hmarks.of_some (suffix?_qualifier q hc x)
      cases q <;> simpa [Mark.text, Mark.isReference, Qualifier.suffix] using hsuffix

end Marks

/-! ## Leading words -/

/-- A leading word comes off the start where a blank follows it. -/
theorem lead?_leadWord (w : LeadWord) {c : Char} (hc : isBlank c = true) (x : List Char) :
    lead? (w.text.toList ++ c :: x) = some (w.lead, dropBlanks x) := by
  have hletters : ∀ a ∈ w.text.toList, (!isBlank a) = true := fun a ha => by
    rw [(w.letters.2 a ha).1]
    rfl
  have hwords : (leadingWords.all fun p => p.1.toList.all (!isBlank ·)) = true := by
    decide +kernel
  -- no other word of the table can start there
  have hread : ∀ p ∈ leadingWords, (afterWord? p.1 (w.text.toList ++ c :: x)).map (p.2, ·) =
      if p.1 = w.text then some (p.2, dropBlanks x) else none := by
    intro p hp
    split
    · next heq =>
      rw [Option.map_eq_some_iff]
      exact ⟨_, afterWord?_eq_some_iff.2 ⟨c, x, by rw [heq], hc, rfl⟩, rfl⟩
    · next hne =>
      rw [Option.map_eq_none_iff, Option.eq_none_iff_forall_not_mem]
      intro r hr
      obtain ⟨c', x', heq, hc', -⟩ := afterWord?_eq_some_iff.1 hr
      have hother := List.all_eq_true.1 (List.all_eq_true.1 hwords p hp)
      obtain ⟨hsame, -⟩ := word_unique hletters hother (by simp [hc]) (by simp [hc']) heq.symm
      exact hne (String.toList_inj.1 hsame)
  rw [lead?, findSome?_congr hread]
  rcases w with _ | _ | _ | k
  · simp [leadingWords, LeadWord.text, LeadWord.lead]
  · simp [leadingWords, LeadWord.text, LeadWord.lead]
  · simp [leadingWords, LeadWord.text, LeadWord.lead]
  · cases k <;> simp [leadingWords, LeadWord.text, LeadWord.lead, Keyword.word]

theorem fresh_leadText {b : List Char} (hb : Fresh b) (ls : List (LeadWord × List Char)) :
    Fresh (leadText ls ++ b) := by
  rcases ls with _ | ⟨⟨w, gap⟩, ls⟩
  · exact hb
  rw [leadText, List.flatMap_cons, List.append_assoc, List.append_assoc]
  exact fresh_append (fresh_of_forall fun c hc => (w.letters.2 c hc).1) w.letters.1 _

/-- **All leading words come off the start**, and nothing else. -/
theorem leads_leadText (ls : List (LeadWord × List Char))
    (hls : ∀ p ∈ ls, p.2 ≠ [] ∧ ∀ c ∈ p.2, isBlank c = true) {b : List Char} (hb : Fresh b)
    (hnone : lead? b = none) : leads (leadText ls ++ b) = (ls.map (·.1.lead), b) := by
  induction ls with
  | nil => exact leads_of_none hnone
  | cons p ls ih =>
    obtain ⟨w, gap⟩ := p
    rw [List.forall_mem_cons] at hls
    obtain ⟨⟨hne, hgap⟩, hls⟩ := hls
    obtain ⟨c, gap, rfl⟩ := List.exists_cons_of_ne_nil hne
    have htext : leadText ((w, c :: gap) :: ls) ++ b =
        w.text.toList ++ c :: (gap ++ (leadText ls ++ b)) := by simp [leadText]
    rw [htext, leads_of_some (lead?_leadWord w (hgap c List.mem_cons_self) _),
      dropBlanks_append fun d hd => hgap d (List.mem_cons_of_mem _ hd),
      (fresh_leadText hb ls).dropBlanks, ih hls, List.map_cons]

/-- The keyword that the parser finds is the last one. -/
theorem lastKeyword_lead (ls : List (LeadWord × List Char)) :
    lastKeyword (ls.map (·.1.lead)) = (ls.filterMap (·.1.keyword?)).getLast? := by
  induction ls using List.reverseRecOn with
  | nil => rfl
  | append_singleton ls p ih =>
    rw [lastKeyword] at ih ⊢
    rw [List.map_append, List.foldl_append, ih, List.filterMap_append]
    obtain ⟨w, gap⟩ := p
    cases w <;> simp [LeadWord.lead, LeadWord.keyword?]

theorem contains_const_lead (ls : List (LeadWord × List Char)) :
    (ls.map (·.1.lead)).contains .const = ls.any (·.1 = .const) := by
  induction ls with
  | nil => rfl
  | cons p ls ih =>
    obtain ⟨w, gap⟩ := p
    rw [List.map_cons, List.contains_cons, ih, List.any_cons]
    cases w <;> rfl

/-! ## The whole string -/

theorem hasPointerGroup_eq_false {s : List Char} (h : '(' ∉ s) : hasPointerGroup s = false := by
  induction s with
  | nil => rfl
  | cons c s ih =>
    rw [List.mem_cons, not_or] at h
    rw [hasPointerGroup, ih h.2, Bool.or_false, Bool.and_eq_false_iff]
    exact .inl (beq_eq_false_iff_ne.2 (Ne.symm h.1))

/-- Nothing comes off the end if there is no sign and no word of the table. -/
theorem suffix?_eq_none_iff {rev : List Char} : suffix? rev = none ↔
    rev.head? ≠ some '&' ∧ rev.head? ≠ some '*' ∧
      ∀ p ∈ trailingWords, beforeWord? p.1 rev = none := by
  constructor
  · intro h
    have hamp : rev.head? ≠ some '&' := by
      intro hhead
      obtain ⟨r, rfl⟩ := List.head?_eq_some_iff.1 hhead
      have hsome := (marked_reference r).reference
      rw [suffixes_of_none h] at hsome
      cases hsome
    have hstar : rev.head? ≠ some '*' := by
      intro hhead
      obtain ⟨r, rfl⟩ := List.head?_eq_some_iff.1 hhead
      cases h
    rw [suffix?_of_ne hamp hstar, List.findSome?_eq_none_iff] at h
    exact ⟨hamp, hstar, fun p hp => Option.map_eq_none_iff.1 (h p hp)⟩
  · rintro ⟨hamp, hstar, hwords⟩
    rw [suffix?_of_ne hamp hstar, List.findSome?_eq_none_iff]
    exact fun p hp => Option.map_eq_none_iff.2 (hwords p hp)

theorem exists_leadWord {p : String × Lead} (hp : p ∈ leadingWords) :
    ∃ w : LeadWord, w.text = p.1 := by
  simp only [leadingWords, List.mem_cons, List.not_mem_nil, or_false] at hp
  rcases hp with rfl | rfl | rfl | rfl | rfl | rfl | rfl
  · exact ⟨.const, rfl⟩
  · exact ⟨.volatile, rfl⟩
  · exact ⟨.typename, rfl⟩
  · exact ⟨.keyword .struct, rfl⟩
  · exact ⟨.keyword .class_, rfl⟩
  · exact ⟨.keyword .union, rfl⟩
  · exact ⟨.keyword .enum, rfl⟩

theorem exists_qualifier {p : String × Suffix} (hp : p ∈ trailingWords) :
    ∃ q : Qualifier, q.text = p.1 := by
  simp only [trailingWords, List.mem_cons, List.not_mem_nil, or_false] at hp
  rcases hp with rfl | rfl | rfl | rfl | rfl | rfl
  · exact ⟨.const, rfl⟩
  · exact ⟨.volatile, rfl⟩
  · exact ⟨.ptr32, rfl⟩
  · exact ⟨.ptr64, rfl⟩
  · exact ⟨.unaligned, rfl⟩
  · exact ⟨.restrict, rfl⟩

/-- Blanks stand before a base, if anything does. -/
theorem isBlank_of_head?_leadText {ls : List (LeadWord × List Char)}
    (hls : ∀ p ∈ ls, p.2 ≠ [] ∧ ∀ c ∈ p.2, isBlank c = true) :
    ∀ c ∈ (leadText ls).reverse.head?, isBlank c = true := by
  intro c hc
  rcases List.eq_nil_or_concat ls with rfl | ⟨ls, ⟨w, gap⟩, rfl⟩
  · cases hc
  obtain ⟨hne, hgap⟩ := hls (w, gap) (by simp)
  have htext : (leadText (ls.concat (w, gap))).reverse =
      gap.reverse ++ (w.text.toList.reverse ++ (leadText ls).reverse) := by simp [leadText]
  rw [htext, List.head?_append_of_ne_nil _ (by simpa using hne)] at hc
  exact hgap c (List.mem_reverse.1 (List.mem_of_head? hc))

namespace IsBase

variable {b : List Char} (h : IsBase b)

include h

theorem fresh_reverse : Fresh b.reverse := by
  rw [Fresh, List.head?_reverse]
  exact h.endsFresh

theorem lead?_eq_none : lead? b = none := by
  cases hlead : lead? b with
  | none => rfl
  | some p =>
    obtain ⟨word, c, x, hp, hb, hc, -⟩ := exists_of_lead? hlead
    obtain ⟨w, rfl⟩ := exists_leadWord hp
    have hunled := h.unled w ⟨c :: x, hb.symm⟩
    rw [hb, List.drop_left, List.head?_cons, Option.any_some, hc] at hunled
    cases hunled

/-- No mark comes off a base, whatever words stand before it. -/
theorem suffix?_eq_none {ls : List (LeadWord × List Char)}
    (hls : ∀ p ∈ ls, p.2 ≠ [] ∧ ∀ c ∈ p.2, isBlank c = true) :
    suffix? (b.reverse ++ (leadText ls).reverse) = none := by
  have hhead : (b.reverse ++ (leadText ls).reverse).head? = b.getLast? := by
    rw [List.head?_append_of_ne_nil _ (by simpa using h.nonempty), List.head?_reverse]
  rw [suffix?_eq_none_iff, hhead]
  refine ⟨fun hlast => (h.ends _ hlast).2.2 rfl, fun hlast => (h.ends _ hlast).2.1 rfl, ?_⟩
  intro p hp
  obtain ⟨q, hq⟩ := exists_qualifier hp
  rw [Option.eq_none_iff_forall_not_mem]
  intro r hr
  obtain ⟨c, x, heq, hc, -⟩ := beforeWord?_eq_some_iff.1 hr
  have hletters := isName_of_mem_trailingWords hp
  rw [← hq] at heq hletters
  -- either the word ends the base, or it begins before the base
  rcases List.append_eq_append_iff.1 heq with ⟨y, hy, hrest⟩ | ⟨y, hy, hrest⟩
  · cases y with
    | nil =>
      have hb : b = q.text.toList := by
        rw [List.append_nil] at hy
        exact (List.reverse_injective hy).symm
      have hran := h.unqualified q ⟨[], hb.symm⟩
      rw [hb, List.rdrop, Nat.sub_self] at hran
      cases hran
    | cons d y =>
      have hblank := isBlank_of_head?_leadText hls d (by rw [hrest]; rfl)
      have hname := hletters d (by rw [hy]; simp)
      rw [isName_of_isBlank hblank] at hname
      cases hname
  · have hb : b = y.reverse ++ q.text.toList := by
      rw [← List.reverse_reverse b, hy, List.reverse_append, List.reverse_reverse]
    have hran := h.unqualified q ⟨y.reverse, hb.symm⟩
    rw [hb, List.rdrop_append_length, List.getLast?_reverse] at hran
    cases y with
    | nil => cases hran
    | cons d y =>
      obtain ⟨rfl, -⟩ := List.cons.inj hrest
      rw [List.head?_cons, Option.any_some, isName, hc] at hran
      cases hran

end IsBase

theorem mem_of_mem_trim {c : Char} {s : List Char} (h : c ∈ trim s) : c ∈ s := by
  rw [trim, trimEnd, List.mem_reverse] at h
  have hfront := (List.dropWhile_suffix isBlank).subset h
  exact (List.dropWhile_suffix isBlank).subset (List.mem_reverse.1 hfront)

namespace Written

variable {w : Written} (h : w.Proper)

include h

/-- Nothing that is written opens a group. -/
theorem Proper.not_mem_chars : '(' ∉ w.chars := by
  have hblank : ∀ {s : List Char}, (∀ c ∈ s, isBlank c = true) → '(' ∉ s := by
    intro s hs hmem
    exact absurd (hs _ hmem) (by decide)
  have hleads : '(' ∉ leadText w.leads := by
    rw [leadText, List.mem_flatMap]
    rintro ⟨p, hp, hmem⟩
    rcases List.mem_append.1 hmem with hmem | hmem
    · exact (p.1.letters.2 _ hmem).2 rfl
    · exact hblank (h.leads p hp).2 hmem
  have hmarks : '(' ∉ markText w.marks := by
    rw [markText, List.mem_flatMap]
    rintro ⟨p, hp, hmem⟩
    rcases List.mem_append.1 hmem with hmem | hmem
    · exact hblank (h.marks p hp) hmem
    · exact (p.2.letters.2 _ hmem).2.1 rfl
  have hdimensions : '(' ∉ dimensionText w.dimensions := by
    rw [dimensionText, List.mem_flatMap]
    rintro ⟨p, hp, hmem⟩
    have hdigits : '(' ∉ decimal p.2.toNat := fun hmem =>
      absurd (isDigit_of_mem_decimal hmem) (by decide)
    rcases List.mem_append.1 hmem with hmem | hmem
    · exact hblank (h.dimensions p hp) hmem
    · simp [hdigits] at hmem
  have hbase : '(' ∉ w.base := fun hmem => (h.base.plain '(' hmem).1 rfl
  simp [chars, hblank h.before, hblank h.after, hleads, hmarks, hdimensions, hbase]

/-- Outer blanks go. The rest, backwards, is what the parser goes over. -/
theorem Proper.reverse_trim : (trim w.chars).reverse =
    dropBlanks ((dimensionText w.dimensions).reverse ++
      ((markText w.marks).reverse ++ (w.base.reverse ++ (leadText w.leads).reverse))) := by
  have hstart : Fresh (leadText w.leads ++ (w.base ++ (markText w.marks ++
      (dimensionText w.dimensions ++ w.after)))) :=
    fresh_leadText (fresh_append h.base.fresh h.base.nonempty _) w.leads
  have hchars : w.chars = w.before ++ (leadText w.leads ++ (w.base ++ (markText w.marks ++
      (dimensionText w.dimensions ++ w.after)))) := by simp [chars]
  rw [trim, trimEnd, List.reverse_reverse, hchars, dropBlanks_append h.before, hstart.dropBlanks]
  simp only [List.reverse_append, List.append_assoc]
  exact dropBlanks_reverse_append h.after

/-- Behind the dimensions there is no other bracket. -/
theorem Proper.head?_ne_bracket : (dropBlanks ((markText w.marks).reverse ++
    (w.base.reverse ++ (leadText w.leads).reverse))).head? ≠ some ']' := by
  have hbase : Fresh (w.base.reverse ++ (leadText w.leads).reverse) ∧
      (w.base.reverse ++ (leadText w.leads).reverse).head? ≠ some ']' := by
    have hne : w.base.reverse ≠ [] := by simpa using h.base.nonempty
    refine ⟨fresh_append h.base.fresh_reverse hne _, ?_⟩
    rw [List.head?_append_of_ne_nil _ hne, List.head?_reverse]
    exact fun hlast => (h.base.ends _ hlast).1 rfl
  rcases List.eq_nil_or_concat w.marks with hmarks | ⟨ms, ⟨gap, m⟩, hmarks⟩
  · rw [hmarks, markText, List.flatMap_nil, List.reverse_nil, List.nil_append,
      hbase.1.dropBlanks]
    exact hbase.2
  · have hne : m.text.toList.reverse ≠ [] := by simpa using m.letters.1
    have hletter : Fresh (m.text.toList.reverse) :=
      fresh_of_forall fun c hc => (m.letters.2 c (List.mem_reverse.1 hc)).1
    rw [hmarks, List.concat_eq_append, reverse_markText_concat, List.append_assoc,
      (fresh_append hletter hne _).dropBlanks, List.head?_append_of_ne_nil _ hne]
    exact fun hhead =>
      (m.letters.2 _ (List.mem_reverse.1 (List.mem_of_head? hhead))).2.2 rfl

end Written

/-- **Parsing inverts writing**: of a type string that is written by its parts, the parts are
found. -/
theorem parse_text {w : Written} (h : w.Proper) : parse w.text = w.declarator := by
  have hgroup : hasPointerGroup (trim w.chars) = false :=
    hasPointerGroup_eq_false fun hmem => h.not_mem_chars (mem_of_mem_trim hmem)
  have hstem := fresh_append h.base.fresh_reverse (by simpa using h.base.nonempty)
    (leadText w.leads).reverse
  have hdimensions := takeDimensions_dimensionText w.dimensions h.dimensions h.head?_ne_bracket []
  have hmarks := marked_markText w.marks h.marks h.afterBase h.afterWord hstem
    (h.base.suffix?_eq_none h.leads)
  have hleads := leads_leadText w.leads h.leads h.base.fresh h.base.lead?_eq_none
  have htrim : trim w.base = w.base := trim_of_fresh h.base.fresh h.base.fresh_reverse
  rw [parse, Written.text, String.toList_ofList]
  simp only [hgroup, Bool.false_eq_true, if_false, h.reverse_trim, hdimensions, List.append_nil,
    hmarks.pointers, hmarks.reference, hmarks.const, hmarks.rest, List.reverse_append,
    List.reverse_reverse, hleads, htrim, lastKeyword_lead, contains_const_lead]
  rfl

/-- A type string with all kinds of parts. -/
def crowded : Written where
  before := " ".toList
  leads := [(.const, " ".toList), (.keyword .struct, "\t ".toList), (.keyword .class_, " ".toList)]
  base := "ns::Box<int &, struct Foo> Reconst".toList
  marks := [([], .pointer), ([], .qualifier .const), (" ".toList, .qualifier .ptr32),
    ([], .reference), (" ".toList, .reference), ([], .rvalue), ([], .pointer)]
  dimensions := [(" ".toList, 3), ([], 4294967295)]
  after := "\n".toList

theorem proper_crowded : crowded.Proper where
  base :=
    { nonempty := by decide
      fresh := (by decide +kernel : crowded.base.head?.any isBlank = false)
      endsFresh := (by decide +kernel : crowded.base.getLast?.any isBlank = false)
      plain := by simp [crowded]
      ends := by simp [crowded]
      unqualified := by
        intro q
        cases q <;> decide +kernel
      unled := by
        rintro (_ | _ | _ | k)
        · decide +kernel
        · decide +kernel
        · decide +kernel
        · cases k <;> decide +kernel }
  before := by simp [crowded, isBlank]
  after := by simp [crowded, isBlank]
  leads := by simp [crowded, isBlank]
  marks := by simp [crowded, isBlank]
  dimensions := by simp [crowded, isBlank]
  afterBase := by decide
  afterWord := by decide

theorem parse_text_crowded :
    crowded.text = " const struct\t class ns::Box<int &, struct Foo> Reconst" ++
      "*const __ptr32& &&&* [3][4294967295]\n" ∧
    parse crowded.text =
      { base := "ns::Box<int &, struct Foo> Reconst", pointerDepth := 2, isReference := true
        isConst := true, dimensions := [3, 4294967295], keyword := some .class_
        text := crowded.text } :=
  ⟨by decide +kernel, (parse_text proper_crowded).trans (by decide +kernel)⟩

end Declarator

end DeclGraph
