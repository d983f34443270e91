import Anago.ClientConf
import Anago.Saturating

/-!
# The comment on a challenge record

What anago writes into the comment of a TXT record is what tells it later that the record is
its own and how old it is. A comment that does not tell leaves the record alone.
-/

open StdText DecimalText

namespace Cfapi

/-- What anago writes at the start of every challenge record's comment. -/
def challengeMarker : String := "anago DNS-01 challenge"

/-- How long a challenge record can be in use. -/
def challengeLifetimeSecs : Int64 := 10 * 60

/-- The comment for a record published now by process `pid`. -/
def challengeComment (now : Int64) (pid : UInt32) : String :=
  challengeMarker ++ " at=" ++ String.ofList (showInt now.toInt) ++ " pid=" ++
    String.ofList (showNat pid.toNat)

/-- `str::split_whitespace`. -/
def splitWhitespace (cs : List Char) : List (List Char) :=
  (cs.splitOnP isWhitespace).filter (· ≠ [])

/-- `str::strip_prefix`. -/
def stripPrefix (start cs : List Char) : Option (List Char) :=
  if start.isPrefixOf cs then some (cs.drop start.length) else none

/-- When anago wrote a record, from its comment. -/
def writtenAt (comment : String) : Option Int64 :=
  if challengeMarker.toList.isPrefixOf comment.toList then
    ((splitWhitespace comment.toList).findSome? (stripPrefix "at=".toList)).bind parseI64
  else none

/-- A record's comment, if it has a usable one. -/
def commentAt (comment : Option String) : Option String :=
  (comment.map fun comment => String.ofList (trim comment.toList)).filter (!String.isEmpty ·)

structure Record where
  id : String
  kind : String
  content : String
  comment : Option String
  deriving DecidableEq, Repr

def isTxt (record : Record) : Bool := eqIgnoreAsciiCase record.kind.toList "TXT".toList

def pastLifetime (record : Record) (now : Int64) : Bool :=
  (record.comment.bind writtenAt).any fun written =>
    decide (Saturating.sub now written > challengeLifetimeSecs)

/-- The records a sweep removes: TXT records that anago wrote and is done with. -/
def staleChallenges (records : List Record) (now : Int64) : List Record :=
  records.filter fun record => isTxt record && pastLifetime record now

/-- A record that anago can tell is its own and no longer in use. -/
def Stale (now : Int64) (record : Record) : Prop :=
  isTxt record = true ∧ ∃ written, record.comment.bind writtenAt = some written ∧
    written.toInt + 600 < now.toInt

theorem pastLifetime_iff (record : Record) (now : Int64) :
    pastLifetime record now = true ↔
      ∃ written, record.comment.bind writtenAt = some written ∧
      written.toInt + 600 < now.toInt := by
  have lifetime : challengeLifetimeSecs.toInt = 600 := rfl
  have late : ∀ written : Int64, Saturating.sub now written > challengeLifetimeSecs ↔
      written.toInt + 600 < now.toInt := by
    intro written
    have low := Saturating.range now
    rw [gt_iff_lt, Int64.lt_iff_toInt_lt, lifetime, Saturating.toInt_sub, Saturating.clamp]
    simp only [Saturating.minI64, Saturating.maxI64] at *
    omega
  rw [pastLifetime, Option.any_eq_true]
  simp only [decide_eq_true_eq, late]

theorem mem_staleChallenges {records : List Record} {now : Int64} {record : Record} :
    record ∈ staleChallenges records now ↔ record ∈ records ∧ Stale now record := by
  rw [staleChallenges, List.mem_filter, Bool.and_eq_true, pastLifetime_iff]
  rfl

theorem splitWhitespace_append {word : List Char} (solid : word.any isWhitespace = false)
    (nonempty : word ≠ []) {c : Char} (space : isWhitespace c = true) (rest : List Char) :
    splitWhitespace (word ++ c :: rest) = word :: splitWhitespace rest := by
  have solid : ∀ c ∈ word, isWhitespace c = false := fun c mem => by
    simpa using List.any_eq_false.mp solid c mem
  rw [splitWhitespace, List.splitOnP_append_cons_of_forall_mem solid c space,
    List.filter_cons_of_pos (by simpa)]
  rfl

theorem solid_showNat (n : Nat) : (showNat n).any isWhitespace = false := by
  rw [List.any_eq_false]
  intro c mem
  have digit := List.all_eq_true.mp (all_isDigit_showNat n) c mem
  have range := isDigit_iff.mp digit
  simp [isWhitespace]
  omega

theorem solid_showInt (n : Int) : (showInt n).any isWhitespace = false := by
  cases n with
  | ofNat n => exact solid_showNat n
  | negSucc n =>
    rw [showInt, List.any_cons, solid_showNat]
    rfl

theorem toList_challengeComment (now : Int64) (pid : UInt32) :
    (challengeComment now pid).toList =
      challengeMarker.toList ++ " at=".toList ++ showInt now.toInt ++ " pid=".toList ++
        showNat pid.toNat := by
  simp only [challengeComment, String.toList_append, String.toList_ofList]

/-- The time is read back out of the comment. -/
theorem writtenAt_challengeComment (now : Int64) (pid : UInt32) :
    writtenAt (challengeComment now pid) = some now := by
  have marked : challengeMarker.toList.isPrefixOf (challengeComment now pid).toList = true := by
    rw [toList_challengeComment]
    simp only [List.append_assoc]
    exact List.isPrefixOf_iff_prefix.mpr (List.prefix_append _ _)
  have words : (challengeComment now pid).toList =
      "anago".toList ++ ' ' :: ("DNS-01".toList ++ ' ' :: ("challenge".toList ++ ' ' ::
        (("at=".toList ++ showInt now.toInt) ++ ' ' :: ("pid=".toList ++ showNat pid.toNat)))) := by
    rw [toList_challengeComment, challengeMarker]
    simp
  have stamp : ("at=".toList ++ showInt now.toInt).any isWhitespace = false := by
    rw [List.any_append, solid_showInt]
    rfl
  have found : stripPrefix "at=".toList ("at=".toList ++ showInt now.toInt) =
      some (showInt now.toInt) := by
    rw [stripPrefix, if_pos (List.isPrefixOf_iff_prefix.mpr (List.prefix_append _ _)),
      List.drop_left]
  rw [writtenAt, if_pos marked, words, splitWhitespace_append (by decide) (by decide) rfl,
    splitWhitespace_append (by decide) (by decide) rfl, splitWhitespace_append
      (by decide) (by decide) rfl,
    splitWhitespace_append stamp (by simp) rfl]
  have anago : stripPrefix "at=".toList "anago".toList = none := by decide
  have dns : stripPrefix "at=".toList "DNS-01".toList = none := by decide
  have challenge : stripPrefix "at=".toList "challenge".toList = none := by decide
  rw [List.findSome?_cons, anago, List.findSome?_cons, dns, List.findSome?_cons, challenge,
    List.findSome?_cons, found]
  exact parseI64_showInt now

/-- Nothing of it is trimmed away. -/
theorem commentAt_challengeComment (now : Int64) (pid : UInt32) :
    commentAt (some (challengeComment now pid)) = some (challengeComment now pid) := by
  have solid : ∀ c, (showNat pid.toNat).getLast? = some c →
      isWhitespace c = false := fun c last => by
    simpa using List.any_eq_false.mp (solid_showNat pid.toNat) c (List.mem_of_getLast? last)
  have trimmed : trim (challengeComment now pid).toList = (challengeComment now pid).toList := by
    refine trim_of_ends ?_ ?_
    · rw [toList_challengeComment, challengeMarker]
      rintro c ⟨⟩
      rfl
    · rw [toList_challengeComment, List.getLast?_append_of_ne_nil _ (showNat_ne_nil _)]
      exact solid
  have written : (challengeComment now pid).isEmpty = false := by
    rw [Bool.eq_false_iff, ne_eq, String.isEmpty_iff]
    intro empty
    have nothing := congrArg String.toList empty
    rw [toList_challengeComment, challengeMarker] at nothing
    cases nothing
  rw [commentAt, Option.map_some, trimmed, String.ofList_toList]
  simp [written]

/-- Only what starts with the marker, once trimmed, has a time. -/
theorem writtenAt_commentAt {comment : Option String}
    (other : ∀ text, comment = some text → challengeMarker.toList.isPrefixOf
      (trim text.toList) = false) :
    (commentAt comment).bind writtenAt = none := by
  cases comment with
  | none => rfl
  | some text =>
    rw [commentAt, Option.map_some, Option.filter]
    split
    · rw [Option.bind_some, writtenAt, String.toList_ofList, other text rfl]
      rfl
    · rfl

end Cfapi
