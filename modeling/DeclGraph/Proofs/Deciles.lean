import Mathlib.Data.Nat.Find
import Mathlib.Tactic.Common
import DeclGraph.Proofs.Watching

/-!
# Tenths of the way

A meter notes a percentage when that is a new multiple of ten. The percentage is a whole one, so on
a short way it jumps over multiples of ten, which are not noted then. No count overflows on the way
as long as a hundred times the total is a 64-bit number.

* `Meter.share`: the whole percentage at an item. `Meter.marks`: the items with which it comes to a
  multiple of ten.
* `Meter.Follows`: what a meter holds after some items. `Meter.Follows.report`: what one more report
  does.
* `Meter.notes_begun`: the lines that are noted are those of the marks.
* `Meter.mem_shares_marks`: each multiple of ten that is reached is noted.
* `Meter.notes_deciles`: **the percentages that are noted rise to a hundred by tens**, and on a way
  of a hundred items or more none is left out.
-/

namespace DeclGraph.Meter

/-- The whole percentage that `k` items are of `total`. -/
def share (total k : Nat) : Nat := k * 100 / total

/-- The line for the start of a task. -/
def startNote (task : String) (total : Nat) : Note :=
  ⟨.info, "[" ++ task ++ "] Starting (0/" ++ toString total ++ ")"⟩

/-- The line for the percentage at an item. -/
def shareNote (task : String) (total k : Nat) : Note :=
  ⟨.info, "[" ++ task ++ "] Progress: " ++ toString (share total k) ++ "% (" ++ toString k ++ "/" ++
    toString total ++ ")"⟩

/-- Whether the percentage comes to a multiple of ten with item `k`. -/
def isMark (total k : Nat) : Bool := share total (k - 1) < share total k && share total k % 10 == 0

theorem isMark_iff {total k : Nat} : isMark total k = true ↔
    share total (k - 1) < share total k ∧ share total k % 10 = 0 := by
  rw [isMark, Bool.and_eq_true, decide_eq_true_eq, beq_iff_eq]

/-- The items with which the percentage comes to a multiple of ten. -/
def marks (total : Nat) : List Nat := (List.range' 1 total).filter (isMark total)

/-! ## What a meter notes -/

/-- What a meter holds when `k` of the `total` items of a task have been reported: the last noted
percentage is not beyond the one at `k`, and it is that one if that is a multiple of ten. -/
structure Follows (m : Meter) (task : String) (total k : Nat) : Prop where
  task_eq : m.task = task
  total_eq : m.total = total
  le_share : m.lastPercent ≤ share total k
  eq_share : share total k % 10 = 0 → m.lastPercent = share total k

section Notes

variable {m : Meter} {task : String} {total k : Nat}

theorem share_le_share (total : Nat) {k k' : Nat} (h : k ≤ k') : share total k ≤ share total k' :=
  Nat.div_le_div_right (Nat.mul_le_mul_right 100 h)

theorem follows_start (m : Meter) (task : String) (total : Nat) :
    (m.receive (.start task total)).1.Follows task total 0 where
  task_eq := rfl
  total_eq := rfl
  le_share := Nat.zero_le _
  eq_share _ := (Nat.zero_div total).symm

/-- A multiple of ten that is beyond the last noted percentage has not been reached before. -/
theorem Follows.lt_share_iff (h : m.Follows task total k) :
    m.lastPercent < share total (k + 1) ∧ share total (k + 1) % 10 = 0 ↔
      isMark total (k + 1) = true := by
  have hle := h.le_share
  have hrises := share_le_share total (Nat.le_add_right k 1)
  rw [isMark_iff, Nat.add_sub_cancel]
  refine and_congr_left fun hten => ⟨fun hlt => ?_, fun hlt => Nat.lt_of_le_of_lt hle hlt⟩
  by_contra hnot
  -- the percentage was the same before, so that it has been noted
  have hsame : share total k = share total (k + 1) := by omega
  have hnoted := h.eq_share (hsame ▸ hten)
  omega

/-- **One report**: the percentage is noted if the item is a mark. -/
theorem Follows.report (h : m.Follows task total k) (hk : k < total)
    (hmax : total ≤ 0xFFFFFFFFFFFFFFFF / 100) (message : String) :
    (m.receive (.report (k + 1) message)).1.Follows task total (k + 1) ∧
      (m.receive (.report (k + 1) message)).2 =
        if isMark total (k + 1) then [shareNote task total (k + 1)] else [] := by
  have hmark := h.lt_share_iff
  obtain ⟨rfl, rfl, hle, heq⟩ := h
  have hpercent : ({ m with current := k + 1 } : Meter).percent = share m.total (k + 1) := by
    have hword : (1 <<< 64 : Nat) = 0xFFFFFFFFFFFFFFFF + 1 := by decide
    have hfits : (k + 1) * 100 < 1 <<< 64 := by omega
    rw [percent, Nat.mod_eq_of_lt hfits, share]
  have htotal : m.total ≠ 0 := by omega
  simp only [receive, advance, hpercent, ne_eq, htotal, not_false_eq_true, true_and, hmark]
  split
  · exact ⟨⟨rfl, rfl, le_rfl, fun _ => rfl⟩, rfl⟩
  · next hnot =>
    rw [← hmark] at hnot
    -- a multiple of ten that is not noted now is the one that was noted last
    have hbehind := hle.trans (share_le_share m.total (Nat.le_add_right k 1))
    exact ⟨⟨rfl, rfl, hbehind, fun hten =>
      Nat.le_antisymm hbehind (Nat.le_of_not_lt fun hlt => hnot ⟨hlt, hten⟩)⟩, rfl⟩

/-- **A run of reports**: the lines are those of the marks among the items. -/
theorem Follows.notes_reports (hmax : total ≤ 0xFFFFFFFFFFFFFFFF / 100) (messages : List String)
    (h : m.Follows task total k) (hk : k + messages.length ≤ total) :
    (m.notes ((messages.zipIdx (k + 1)).map fun p => .progress (.report p.2 p.1))).2 =
      ((List.range' (k + 1) messages.length).filter (isMark total)).map (shareNote task total) := by
  induction messages generalizing m k with
  | nil => rfl
  | cons message messages ih =>
    rw [List.length_cons] at hk
    obtain ⟨hnext, hnotes⟩ := h.report (by omega) hmax message
    rw [List.zipIdx_cons, List.map_cons, notes, List.length_cons, List.range'_succ,
      List.filter_cons]
    dsimp only
    rw [hnotes, ih hnext (by omega)]
    split <;> rfl

/-- **What is noted on the way**: the start, and the percentage at each mark. -/
theorem notes_begun (m : Meter) (task : String) (messages : List String)
    (hmax : messages.length ≤ 0xFFFFFFFFFFFFFFFF / 100) :
    (m.notes ((begunCalls task messages.length messages).map .progress)).2 =
      startNote task messages.length ::
        (marks messages.length).map (shareNote task messages.length) := by
  -- a start makes the meter forget what it held
  have hstart := follows_start m task messages.length
  have hreports := hstart.notes_reports hmax messages (Nat.zero_add _).le
  rw [begunCalls, List.map_cons, List.map_map, notes]
  exact congrArg _ hreports

end Notes

/-! ## The percentages at the marks -/

section Marks

variable {total k p : Nat}

theorem mem_marks : k ∈ marks total ↔
    k ≤ total ∧ share total (k - 1) < share total k ∧ share total k % 10 = 0 := by
  rw [marks, List.mem_filter, List.mem_range'_1, isMark_iff]
  refine ⟨fun ⟨hk, hmark⟩ => ⟨by omega, hmark⟩, fun ⟨hk, hmark⟩ => ⟨⟨?_, by omega⟩, hmark⟩⟩
  by_contra hzero
  obtain rfl : k = 0 := by omega
  exact absurd hmark.1 (Nat.lt_irrefl _)

theorem share_zero (total : Nat) : share total 0 = 0 := by rw [share, Nat.zero_mul, Nat.zero_div]

theorem share_self (hpos : 0 < total) : share total total = 100 := Nat.mul_div_cancel_left 100 hpos

/-- **Each multiple of ten that is reached is noted**, with the first item that reaches it. -/
theorem mem_shares_marks : p ∈ (marks total).map (share total) ↔
    0 < p ∧ p % 10 = 0 ∧ ∃ k ≤ total, share total k = p := by
  rw [List.mem_map]
  constructor
  · rintro ⟨k, hk, rfl⟩
    obtain ⟨hle, hlt, hten⟩ := mem_marks.1 hk
    exact ⟨by omega, hten, k, hle, rfl⟩
  · rintro ⟨hp, hten, hreached⟩
    classical
    obtain ⟨hle, hshare⟩ := Nat.find_spec hreached
    refine ⟨Nat.find hreached, mem_marks.2 ⟨hle, ?_, by rw [hshare, hten]⟩, hshare⟩
    have hrises := share_le_share total (Nat.sub_le (Nat.find hreached) 1)
    by_contra hnot
    -- otherwise the item before it, or none at all, would have reached it first
    have hfirst := Nat.find_min' hreached ⟨(Nat.sub_le _ 1).trans hle, by omega⟩
    have hnone : Nat.find hreached = 0 := by omega
    rw [hnone, share_zero] at hshare
    omega

/-- The percentages rise from mark to mark. -/
theorem pairwise_shares_marks (total : Nat) :
    ((marks total).map (share total)).Pairwise (· < ·) := by
  rw [List.pairwise_map]
  have hrange : (marks total).Pairwise (· < ·) := (List.pairwise_lt_range' 1).filter _
  refine hrange.imp_of_mem fun {j k} _ hk hlt => ?_
  have hbefore : share total j ≤ share total (k - 1) := share_le_share total (by omega)
  exact hbefore.trans_lt (mem_marks.1 hk).2.1

/-- A mark's percentage is one of the tens up to a hundred. -/
theorem tens_of_mem_shares_marks (hpos : 0 < total) (hp : p ∈ (marks total).map (share total)) :
    p % 10 = 0 ∧ 10 ≤ p ∧ p ≤ 100 := by
  obtain ⟨hpositive, hten, k, hk, rfl⟩ := mem_shares_marks.1 hp
  have hle := share_le_share total hk
  rw [share_self hpos] at hle
  exact ⟨hten, by omega, hle⟩

/-- The last mark is the last item. -/
theorem getLast?_marks (hpos : 0 < total) : (marks total).getLast? = some total := by
  have hmark : isMark total total = true := by
    rw [isMark_iff, share_self hpos]
    exact ⟨Nat.div_lt_of_lt_mul (by omega), rfl⟩
  obtain ⟨n, rfl⟩ : ∃ n, total = n + 1 := ⟨total - 1, by omega⟩
  rw [marks, List.range'_1_concat, Nat.add_comm 1 n, List.filter_append,
    List.filter_singleton, hmark, cond_true, List.getLast?_concat]

/-- On a way of a hundred items or more, one item is not more than one percent. -/
theorem share_succ_le (hlong : 100 ≤ total) (k : Nat) :
    share total (k + 1) ≤ share total k + 1 := by
  rw [share, share, ← Nat.add_div_right _ (by omega)]
  exact Nat.div_le_div_right (by omega)

/-- So no percentage is left out. -/
theorem exists_share_eq (hlong : 100 ≤ total) {n : Nat} (hp : p ≤ share total n) :
    ∃ k ≤ n, share total k = p := by
  induction n with
  | zero => exact ⟨0, le_rfl, by rw [share_zero] at hp ⊢; omega⟩
  | succ n ih =>
    have hstep := share_succ_le hlong n
    by_cases hreached : p ≤ share total n
    · obtain ⟨k, hk, hshare⟩ := ih hreached
      exact ⟨k, by omega, hshare⟩
    · exact ⟨n + 1, le_rfl, by omega⟩

/-- On a way of a hundred items or more, each multiple of ten is noted. -/
theorem shares_marks_eq (hlong : 100 ≤ total) :
    (marks total).map (share total) = [10, 20, 30, 40, 50, 60, 70, 80, 90, 100] := by
  have hmem : ∀ p, p ∈ (marks total).map (share total) ↔
      p ∈ [10, 20, 30, 40, 50, 60, 70, 80, 90, 100] := by
    refine fun p => ⟨fun hp => ?_, fun hp => ?_⟩
    · obtain ⟨hten, hlow, hhigh⟩ := tens_of_mem_shares_marks (by omega) hp
      simp only [List.mem_cons, List.not_mem_nil, or_false]
      omega
    · simp only [List.mem_cons, List.not_mem_nil, or_false] at hp
      have hreached : p ≤ share total total := by
        rw [share_self (by omega)]
        omega
      exact mem_shares_marks.2 ⟨by omega, by omega, exists_share_eq hlong hreached⟩
  have hrises := pairwise_shares_marks total
  have htens : [10, 20, 30, 40, 50, 60, 70, 80, 90, 100].Pairwise (· < ·) := by decide
  exact List.Perm.eq_of_pairwise (fun _ _ _ _ hlt hgt => absurd hlt hgt.asymm) hrises htens
    ((List.perm_ext_iff_of_nodup (hrises.imp Nat.ne_of_lt) (htens.imp Nat.ne_of_lt)).2 hmem)

end Marks

/-- **The percentages that are noted rise to a hundred by tens**, whatever the meter held before.
They are those at the marks, and on a way of a hundred items or more each multiple of ten is noted
once. -/
theorem notes_deciles (m : Meter) (task : String) {total : Nat} {messages : List String}
    (hlength : messages.length = total) (hpos : 0 < total)
    (hmax : total ≤ 0xFFFFFFFFFFFFFFFF / 100) :
    (m.notes ((begunCalls task total messages).map .progress)).2 =
        startNote task total :: (marks total).map (shareNote task total) ∧
      ((marks total).map (share total)).Pairwise (· < ·) ∧
      (∀ p ∈ (marks total).map (share total), 10 ∣ p ∧ 10 ≤ p ∧ p ≤ 100) ∧
      ((marks total).map (share total)).getLast? = some 100 ∧
      (100 ≤ total →
        (marks total).map (share total) = [10, 20, 30, 40, 50, 60, 70, 80, 90, 100]) := by
  subst hlength
  refine ⟨notes_begun m task messages hmax, pairwise_shares_marks _, ?_, ?_, shares_marks_eq⟩
  · intro p hp
    obtain ⟨hten, hbounds⟩ := tens_of_mem_shares_marks hpos hp
    exact ⟨Nat.dvd_of_mod_eq_zero hten, hbounds⟩
  · rw [List.getLast?_map, getLast?_marks hpos, Option.map_some, share_self hpos]

/-- A meter that has finished another task, and the longest way on which no count overflows. -/
theorem notes_deciles_longest :
    let total := 184467440737095516
    let finished : Meter := ⟨"Resolving type references", 7, 7, 100⟩
    (finished.notes ((begunCalls "Calculating layouts" total (List.replicate total "")).map
        .progress)).2 =
      startNote "Calculating layouts" total ::
        (marks total).map (shareNote "Calculating layouts" total) ∧
      (marks total).map (share total) = [10, 20, 30, 40, 50, 60, 70, 80, 90, 100] := by
  intro total finished
  obtain ⟨hnotes, -, -, -, hlong⟩ := notes_deciles finished "Calculating layouts"
    (List.length_replicate : (List.replicate total "").length = total) (by decide) (by decide)
  exact ⟨hnotes, hlong (by decide)⟩

example : (({} : Meter).notes ((begunCalls "scan" 4 (List.replicate 4 "")).map .progress)).2 =
    [⟨.info, "[scan] Starting (0/4)"⟩, ⟨.info, "[scan] Progress: 50% (2/4)"⟩,
      ⟨.info, "[scan] Progress: 100% (4/4)"⟩] := by decide +kernel

end DeclGraph.Meter
