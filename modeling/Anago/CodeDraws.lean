import Mathlib.Data.Set.Finite.List
import Mathlib.SetTheory.Cardinal.Finite
import Anago.CodeReading
import Anago.FairDraws
import Anago.Outcome

/-!
# Drawing a join code

Random bytes come in blocks; a byte gives a position of the alphabet if it lies below the largest
multiple of the alphabet's length. So every code is drawn from equally many random inputs.
-/

namespace Secret

open JoinCode

/-- The bytes below this are used. -/
def limit : Nat := 256 / alphabet.length * alphabet.length

def blockLen : Nat := 32

/-- The positions in a block, until there are enough. -/
def gather (indices : List Nat) : List UInt8 → List Nat
  | [] => indices
  | byte :: block =>
    if byte.toNat < limit then
      if (indices ++ [byte.toNat % alphabet.length]).length = codeLen
        then indices ++ [byte.toNat % alphabet.length]
      else gather (indices ++ [byte.toNat % alphabet.length]) block
    else gather indices block

/-- The positions of a code. `reads` is what reading random bytes gives, time after time. -/
def drawIndices (indices : List Nat) : List (Except String (List UInt8)) →
    Option (Except String (List Nat))
  | [] => if indices.length < codeLen then none else some (.ok indices)
  | read :: reads =>
    if indices.length < codeLen then
      match read with
      | .error e => some (.error e)
      | .ok block => drawIndices (gather indices block) reads
    else some (.ok indices)

/-- A fresh join code, or nothing as long as there are not enough bytes. -/
def newJoinCode (reads : List (Except String (List UInt8))) : Option (Outcome String JoinCode) :=
  match drawIndices [] reads with
  | none => none
  | some (.error e) => some (.err e)
  | some (.ok indices) =>
    match fromIndices indices with
    | some code => some (.ok code)
    | none => some .panic

/-- The position a byte gives. -/
def position (byte : UInt8) : Option Nat :=
  if byte.toNat < limit then some (byte.toNat % alphabet.length) else none

open FairDraws

theorem position_lt {byte : UInt8} {i : Nat} (h : position byte = some i) :
    i < alphabet.length := by
  rw [position] at h
  split at h
  · cases h
    exact Nat.mod_lt _ (by decide)
  · cases h

theorem gather_eq {indices : List Nat} (few : indices.length < codeLen) (block : List UInt8) :
    gather indices block = indices ++ taken position (codeLen - indices.length) block := by
  obtain ⟨k, hk⟩ : ∃ k, codeLen - indices.length = k + 1 := ⟨codeLen - indices.length - 1, by omega⟩
  induction block generalizing indices k with
  | nil => rw [gather, hk, taken, List.append_nil]
  | cons byte block ih =>
    rw [gather, hk, taken]
    by_cases used : byte.toNat < limit
    · rw [if_pos used, position, if_pos used]
      simp only
      have longer : (indices ++ [byte.toNat % alphabet.length]).length = indices.length + 1 := by
        rw [List.length_append, List.length_singleton]
      by_cases full : (indices ++ [byte.toNat % alphabet.length]).length = codeLen
      · rw [if_pos full]
        have none : k = 0 := by omega
        rw [none, taken]
      · rw [if_neg full, ih (by omega) (k - 1) (by omega), List.append_assoc]
        have rest : codeLen - (indices ++ [byte.toNat % alphabet.length]).length = k := by omega
        rw [rest]
        rfl
    · rw [if_neg used, position, if_neg used, ih few k hk, hk]

/-- Where a block ends does not matter. -/
theorem drawIndices_eq {indices : List Nat} (few : indices.length ≤ codeLen)
    (blocks : List (List UInt8)) :
    drawIndices indices (blocks.map .ok) =
      (drawn position (codeLen - indices.length) blocks.flatten).map fun rest =>
        .ok (indices ++ rest) := by
  induction blocks generalizing indices with
  | nil =>
    rw [List.map_nil, drawIndices, List.flatten_nil]
    by_cases more : indices.length < codeLen
    · obtain ⟨k, hk⟩ : ∃ k, codeLen - indices.length = k + 1 :=
        ⟨codeLen - indices.length - 1, by omega⟩
      rw [if_pos more, hk, drawn]
      rfl
    · have none : codeLen - indices.length = 0 := by omega
      rw [if_neg more, none, drawn, Option.map_some, List.append_nil]
  | cons block blocks ih =>
    rw [List.map_cons, drawIndices, List.flatten_cons]
    by_cases more : indices.length < codeLen
    · have most := @length_taken_le _ _ position (codeLen - indices.length) block
      have len : (indices ++ taken position (codeLen - indices.length) block).length =
          indices.length + (taken position (codeLen - indices.length) block).length :=
            List.length_append
      rw [if_pos more]
      rw [gather_eq more, ih (by omega), drawn_append, len, Nat.sub_add_eq, Option.map_map]
      refine congrArg (Option.map · _) (funext fun rest => ?_)
      rw [List.append_assoc]
      rfl
    · have none : codeLen - indices.length = 0 := by omega
      rw [if_neg more, none, drawn, Option.map_some, List.append_nil]

/-- Moves a byte from one position to another, within its row of the table. -/
def relabel (i j : Nat) (byte : UInt8) : UInt8 :=
  if byte.toNat < limit then
    UInt8.ofNat (byte.toNat / alphabet.length * alphabet.length + Equiv.swap i j
      (byte.toNat % alphabet.length))
  else byte

theorem relabel_relabels {i j : Nat} (hi : i < alphabet.length) (hj : j < alphabet.length) :
    Relabels position (relabel i j) i j := by
  have size : alphabet.length = 30 := rfl
  have most : limit = 240 := rfl
  rw [size] at hi hj
  have within (n : Nat) : Equiv.swap i j (n % 30) < 30 := by
    have low := Nat.mod_lt n (by omega : 30 > 0)
    by_cases left : n % 30 = i
    · rw [left, Equiv.swap_apply_left]
      exact hj
    · by_cases right : n % 30 = j
      · rw [right, Equiv.swap_apply_right]
        exact hi
      · rw [Equiv.swap_apply_of_ne_of_ne left right]
        exact low
  have moved {byte : UInt8} (used : byte.toNat < limit) :
      (relabel i j byte).toNat = byte.toNat / 30 * 30 + Equiv.swap i j (byte.toNat % 30) := by
    have low := within byte.toNat
    rw [relabel, if_pos used, size, UInt8.toNat_ofNat']
    omega
  have still {byte : UInt8} (used : byte.toNat < limit) : (relabel i j byte).toNat < limit := by
    have low := within byte.toNat
    rw [moved used]
    omega
  constructor
  · intro byte
    by_cases used : byte.toNat < limit
    · refine UInt8.toNat_inj.mp ?_
      have low := within byte.toNat
      have back : ((relabel i j byte).toNat % 30) = Equiv.swap i j (byte.toNat % 30) := by
        rw [moved used]
        omega
      rw [moved (still used), back, Equiv.swap_apply_self, moved used]
      omega
    · have kept : relabel i j byte = byte := if_neg used
      rw [kept, kept]
  · intro byte
    rw [position, position, size]
    by_cases used : byte.toNat < limit
    · have low := within byte.toNat
      rw [if_pos (still used), if_pos used, moved used, Option.map_some]
      refine congrArg some ?_
      omega
    · have kept : relabel i j byte = byte := if_neg used
      rw [kept, if_neg used]
      rfl

/-- What the positions of a code come to. -/
theorem newJoinCode_eq (blocks : List (List UInt8)) {code : JoinCode} {word : List Nat}
    (valid : word ∈ positions) (spells : fromIndices word = some code) :
    newJoinCode (blocks.map .ok) = some (.ok code) ↔
      drawn position word.length blocks.flatten = some word := by
  have few : ([] : List Nat).length ≤ codeLen := Nat.zero_le _
  rw [newJoinCode, drawIndices_eq few, valid.1, List.length_nil, Nat.sub_zero]
  cases drew : drawn position codeLen blocks.flatten with
  | none => exact ⟨by rintro ⟨⟩, by rintro ⟨⟩⟩
  | some other =>
    obtain ⟨len, labels⟩ := drawn_eq_some drew
    have valid' : other ∈ positions := by
      refine ⟨len, fun i there => ?_⟩
      obtain ⟨byte, _, label⟩ := labels i there
      exact position_lt label
    obtain ⟨code', spells', _⟩ := fromIndices_positions valid'
    rw [Option.map_some, List.nil_append]
    simp only [spells', Option.some.injEq, Outcome.ok.injEq]
    constructor
    · rintro rfl
      exact fromIndices_bijOn.injOn valid' valid (spells'.trans spells.symm)
    · rintro rfl
      exact Option.some.inj (spells'.symm.trans spells)

theorem drawIndices_valid {indices word : List Nat} (few : indices.length ≤ codeLen)
    (valid : ∀ i ∈ indices, i < alphabet.length) {reads : List (Except String (List UInt8))}
    (h : drawIndices indices reads = some (.ok word)) : word ∈ positions := by
  induction reads generalizing indices with
  | nil =>
    rw [drawIndices] at h
    split at h
    · cases h
    · cases h
      exact ⟨by omega, valid⟩
  | cons read reads ih =>
    rw [drawIndices.eq_def] at h
    simp only at h
    split at h
    · next more =>
      cases read with
      | error e => cases h
      | ok block =>
        have most := @length_taken_le _ _ position (codeLen - indices.length) block
        simp only [gather_eq more] at h
        refine ih ?_ (fun i there => ?_) h
        · rw [List.length_append]
          omega
        · rcases List.mem_append.mp there with there | there
          · exact valid i there
          · obtain ⟨byte, _, label⟩ := mem_taken there
            exact position_lt label
    · cases h
      exact ⟨by omega, valid⟩

/-- A draw gives a code or fails to read, or it goes on. -/
theorem newJoinCode_ne_panic (reads : List (Except String (List UInt8))) :
    newJoinCode reads ≠ some .panic := by
  rw [newJoinCode]
  split
  · rintro ⟨⟩
  · rintro ⟨⟩
  · next indices drew =>
    obtain ⟨code, spells, _⟩ :=
      fromIndices_positions (drawIndices_valid (Nat.zero_le _) (by rintro _ ⟨⟩) drew)
    rw [spells]
    rintro ⟨⟩

/-- Random input that gives a code: so many blocks, and nothing else. -/
def Inputs (blocks : Nat) (code : JoinCode) : Type :=
  {reads : List (List UInt8) // reads.map List.length = List.replicate blocks blockLen ∧
    newJoinCode (reads.map .ok) = some (.ok code)}

/-- Every code is drawn from equally many random inputs of a size, from one block on from at least
one, and no draw ends without a code while the system gives random bytes. -/
theorem codes_equally_drawn (blocks : Nat) (code code' : JoinCode) :
    Nat.card (Inputs blocks code) = Nat.card (Inputs blocks code') ∧ Finite (Inputs blocks code) ∧
      (0 < blocks → Nonempty (Inputs blocks code)) ∧ ∀ reads, newJoinCode reads ≠ some .panic := by
  have spelled (code : JoinCode) : ∃ word ∈ positions, fromIndices word = some code :=
    fromIndices_bijOn.surjOn ⟨code, ⟨code.asStr, parse_asStr code⟩, rfl⟩
  obtain ⟨word, valid, spells⟩ := spelled code
  obtain ⟨word', valid', spells'⟩ := spelled code'
  have same : word.length = word'.length := valid.1.trans valid'.1.symm
  obtain ⟨pieces⟩ := cut (List.replicate blocks blockLen) fun stream =>
    drawn position word.length stream = some word
  obtain ⟨pieces'⟩ := cut (List.replicate blocks blockLen) fun stream =>
    drawn position word'.length stream = some word'
  have streams :
      Inputs blocks code ≃
        {stream : List UInt8 // stream.length = (List.replicate blocks blockLen).sum ∧
      drawn position word.length stream = some word} :=
    (Equiv.subtypeEquivRight fun reads => and_congr_right fun _ =>
      newJoinCode_eq reads valid spells).trans
      pieces
  have streams' :
      Inputs blocks code' ≃
        {stream : List UInt8 // stream.length = (List.replicate blocks blockLen).sum ∧
      drawn position word.length stream = some word'} := by
    rw [same]
    exact (Equiv.subtypeEquivRight fun reads => and_congr_right fun _ =>
      newJoinCode_eq reads valid' spells').trans
      pieces'
  obtain ⟨fair⟩ := equally_drawn (fun i j hi hj => relabel_relabels hi hj) same valid.2 valid'.2
    (List.replicate blocks blockLen).sum
  have bytes : Finite UInt8 := Finite.of_injective UInt8.toFin fun a b h => UInt8.toFin_inj.mp h
  refine ⟨Nat.card_congr (streams.trans (fair.trans streams'.symm)), ?_, fun more => ?_,
    newJoinCode_ne_panic⟩
  · have finite :
        Finite {stream : List UInt8 // stream.length = (List.replicate blocks blockLen).sum} :=
      (List.finite_length_eq UInt8 _).to_subtype
    refine Finite.of_injective (fun reads => (⟨(streams reads).1, (streams reads).2.1⟩ :
      {stream : List UInt8 // stream.length = (List.replicate blocks blockLen).sum}))
        fun first second h => ?_
    exact streams.injective (Subtype.ext (Subtype.mk.inj h))
  · have total : (List.replicate blocks blockLen).sum = blocks * 32 := List.sum_replicate_nat ..
    have len : word.length = 8 := valid.1
    have symbols : ∀ i ∈ word, position (UInt8.ofNat i) = some i := by
      intro i there
      have small : i < 30 := valid.2 i there
      have same : (UInt8.ofNat i).toNat = i :=
        UInt8.toNat_ofNat_of_lt' (Nat.lt_trans small (by decide))
      have used : i < limit := Nat.lt_of_lt_of_le small (by decide)
      have low : i % alphabet.length = i := Nat.mod_eq_of_lt small
      rw [position, same, if_pos used, low]
    refine ⟨streams.symm ⟨word.map UInt8.ofNat ++ List.replicate (blocks * 32 - 8) 0, ?_,
      drawn_symbols symbols _⟩⟩
    rw [total, List.length_append, List.length_map, List.length_replicate, len]
    omega

end Secret
