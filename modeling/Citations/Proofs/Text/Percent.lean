/-
**What decoding does to a text.**

Decoding changes a text only at its escapes: bytes below 128 are characters of their own in UTF-8,
and a character outside ASCII is never part of an escape.  So a text without a percent sign stands
for itself, and a text that does not stand for itself gets shorter.  A space may be escaped anywhere,
since neither a space nor a percent sign completes an escape that was begun before it.

Main results:

* `Citations.Text.Utf8.decodeLossy_ascii` — ASCII bytes are characters of their own;
* `Citations.Text.decode_eq_self` — **a text without a percent sign stands for itself**;
* `Citations.Text.percentDecode_eq_or_length_lt` — **a text stands for itself or for a shorter one**;
* `Citations.Text.percentUnits_append_space` — an escaped space is a space;
* `Citations.Text.head?_percentDecode` — an ASCII character at the start of a text stays there.
-/

import Citations.Text.Percent

set_option relaxedAutoImplicit false
set_option autoImplicit false

namespace Citations.Text

/-! ### ASCII bytes -/

namespace Utf8

theorem readPiece_ascii {b : UInt8} (h : b.toNat < 0x80) (bs : List UInt8) :
    readPiece b bs = (1, .ok (Char.ofNat b.toNat)) := by
  simp [readPiece, lead, leadBits, continuation, h]

theorem piecesFrom_ascii {bs : List UInt8} (h : ∀ b ∈ bs, b.toNat < 0x80) (pos : Nat) :
    (piecesFrom pos 0 bs).map (fun p => p.content.toOption.getD replacement) =
      bs.map fun b => Char.ofNat b.toNat := by
  induction bs generalizing pos with
  | nil => rfl
  | cons b bs ih =>
      have hb := h b (List.mem_cons_self ..)
      have hbs := ih (fun c hc => h c (List.mem_cons_of_mem _ hc)) (pos + 1)
      simp only [piecesFrom, readPiece_ascii hb, List.map_cons]
      rw [hbs]
      rfl

/-- ASCII bytes are characters of their own. -/
theorem decodeLossy_ascii {bs : List UInt8} (h : ∀ b ∈ bs, b.toNat < 0x80) :
    decodeLossy bs = bs.map fun b => Char.ofNat b.toNat :=
  piecesFrom_ascii h 0

/-! ### Lengths -/

theorem length_piecesFrom_le (bs : List UInt8) (pos skip : Nat) :
    (piecesFrom pos skip bs).length ≤ bs.length := by
  induction bs generalizing pos skip with
  | nil => cases skip <;> exact Nat.le_refl 0
  | cons b bs ih =>
      cases skip with
      | zero => exact Nat.succ_le_succ (ih _ _)
      | succ skip => exact Nat.le_succ_of_le (ih _ _)

theorem length_decodeLossy_le (bs : List UInt8) : (decodeLossy bs).length ≤ bs.length := by
  rw [decodeLossy, List.length_map]
  exact length_piecesFrom_le bs 0 0

theorem decodeLossy_eq_nil_iff (bs : List UInt8) : decodeLossy bs = [] ↔ bs = [] := by
  cases bs with
  | nil => exact ⟨fun _ => rfl, fun _ => rfl⟩
  | cons b bs => simp [decodeLossy, pieces, piecesFrom]

end Utf8

/-! ### Texts without a percent sign -/

theorem percentUnits_of_notMem {cs : List Char} (h : '%' ∉ cs) :
    percentUnits cs = cs.map .ofChar := by
  induction cs with
  | nil => rfl
  | cons c cs ih =>
      rw [List.mem_cons, not_or] at h
      have hunits : percentUnits (c :: cs) = .ofChar c :: percentUnits cs := by
        rw [percentUnits]
        rintro a b rest rfl
        exact absurd rfl h.1
      rw [hunits, ih h.2, List.map_cons]

/-- The characters behind a run of ASCII bytes stay as they are, and so do those of the run. -/
theorem joinUnits_ofChar (cs : List Char) :
    ∀ run : List UInt8, (∀ b ∈ run, b.toNat < 0x80) →
      joinUnits run (cs.map .ofChar) = (run.reverse.map fun b => Char.ofNat b.toNat) ++ cs := by
  induction cs with
  | nil =>
      intro run hrun
      have hreverse : ∀ b ∈ run.reverse, b.toNat < 0x80 := by simpa using hrun
      rw [List.map_nil, joinUnits, Utf8.decodeLossy_ascii hreverse, List.append_nil]
  | cons c cs ih =>
      intro run hrun
      have hreverse : ∀ b ∈ run.reverse, b.toNat < 0x80 := by simpa using hrun
      by_cases hc : c.val < 0x80
      · have hlt : c.toNat < 0x80 := hc
        have hbyte : (UInt8.ofNat c.toNat).toNat = c.toNat := by
          simp only [UInt8.toNat_ofNat']
          omega
        have hnext : ∀ b ∈ UInt8.ofNat c.toNat :: run, b.toNat < 0x80 := by
          intro b hb
          rcases List.mem_cons.1 hb with rfl | hb
          · omega
          · exact hrun b hb
        rw [List.map_cons, PercentUnit.ofChar, if_pos hc, joinUnits, ih _ hnext]
        simp [hbyte]
      · rw [List.map_cons, PercentUnit.ofChar, if_neg hc, joinUnits,
          Utf8.decodeLossy_ascii hreverse, ih [] (by simp)]
        rfl

theorem percentDecode_of_percentUnits {cs : List Char} (h : percentUnits cs = cs.map .ofChar) :
    percentDecode cs = cs := by
  rw [percentDecode, h, joinUnits_ofChar _ [] (by simp)]
  rfl

theorem percentDecode_eq_self {cs : List Char} (h : '%' ∉ cs) : percentDecode cs = cs :=
  percentDecode_of_percentUnits (percentUnits_of_notMem h)

/-- **A text without a percent sign stands for itself.** -/
theorem decode_eq_self {s : String} (h : '%' ∉ s.toList) : decode s = s := by
  rw [decode, percentDecode_eq_self h, String.ofList_toList]

/-! ### Decoding makes texts shorter -/

theorem length_joinUnits_le (us : List PercentUnit) (run : List UInt8) :
    (joinUnits run us).length ≤ run.length + us.length := by
  induction us generalizing run with
  | nil => simpa [joinUnits] using Utf8.length_decodeLossy_le run.reverse
  | cons u us ih =>
      cases u with
      | byte b =>
          have := ih (b :: run)
          simp only [joinUnits, List.length_cons] at this ⊢
          omega
      | wide c =>
          have hrun := Utf8.length_decodeLossy_le run.reverse
          have := ih []
          simp only [joinUnits, List.length_append, List.length_cons, List.length_nil,
            List.length_reverse] at this hrun ⊢
          omega

theorem joinUnits_eq_nil_iff (us : List PercentUnit) (run : List UInt8) :
    joinUnits run us = [] ↔ run = [] ∧ us = [] := by
  induction us generalizing run with
  | nil => simp [joinUnits, Utf8.decodeLossy_eq_nil_iff]
  | cons u us ih =>
      cases u with
      | byte b => simp [joinUnits, ih]
      | wide c => simp [joinUnits]

/-- An escape is one unit instead of three, and without escapes each character is one. -/
theorem percentUnits_eq_or_length_lt (cs : List Char) :
    percentUnits cs = cs.map .ofChar ∨ (percentUnits cs).length < cs.length := by
  fun_induction percentUnits cs with
  | case1 => exact .inl rfl
  | case2 a b cs x y hx hy ih =>
      refine .inr ?_
      rcases ih with h | h
      · simp only [h, List.length_cons, List.length_map]
        omega
      · simp only [List.length_cons]
        omega
  | case3 a b cs h ih =>
      rcases ih with h | h
      · exact .inl (by rw [h]; rfl)
      · exact .inr (Nat.succ_lt_succ h)
  | case4 c cs h ih =>
      rcases ih with h | h
      · exact .inl (by rw [h]; rfl)
      · exact .inr (Nat.succ_lt_succ h)

/-- **A text either stands for itself or stands for a shorter one.** -/
theorem percentDecode_eq_or_length_lt (cs : List Char) :
    percentDecode cs = cs ∨ (percentDecode cs).length < cs.length := by
  rcases percentUnits_eq_or_length_lt cs with h | h
  · exact .inl (percentDecode_of_percentUnits h)
  · have := length_joinUnits_le (percentUnits cs) []
    rw [List.length_nil, Nat.zero_add] at this
    exact .inr (Nat.lt_of_le_of_lt this h)

theorem length_percentDecode_le (cs : List Char) : (percentDecode cs).length ≤ cs.length := by
  rcases percentDecode_eq_or_length_lt cs with h | h
  · exact Nat.le_of_eq (congrArg List.length h)
  · exact Nat.le_of_lt h

/-- Only the empty text stands for the empty text. -/
theorem percentDecode_eq_nil_iff (cs : List Char) : percentDecode cs = [] ↔ cs = [] := by
  have hunits : percentUnits cs = [] ↔ cs = [] := by
    fun_cases percentUnits cs <;> simp
  rw [percentDecode, joinUnits_eq_nil_iff, hunits]
  simp

/-! ### Escaped spaces -/

/-- A character that does not start an escape stands for itself: it is no percent sign, or one of
the two characters behind it is not a hexadecimal digit. -/
theorem percentUnits_cons {c : Char} {cs : List Char}
    (h : ∀ a b rest, c = '%' → cs = a :: b :: rest → hexValue? a = none ∨ hexValue? b = none) :
    percentUnits (c :: cs) = .ofChar c :: percentUnits cs := by
  by_cases hshape : ∃ a b rest, c = '%' ∧ cs = a :: b :: rest
  · obtain ⟨a, b, rest, rfl, rfl⟩ := hshape
    rcases h a b rest rfl rfl with ha | hb
    · rw [percentUnits, ha]
    · rw [percentUnits, hb]
      cases hexValue? a <;> rfl
  · rw [percentUnits]
    exact fun a b rest hc hcs => hshape ⟨a, b, rest, hc, hcs⟩

/-- An escaped space is a space, whatever comes before it. -/
theorem percentUnits_append_space (xs ys : List Char) :
    percentUnits (xs ++ '%' :: '2' :: '0' :: ys) = percentUnits (xs ++ ' ' :: ys) := by
  have hpercent : hexValue? '%' = none := rfl
  have hspace : hexValue? ' ' = none := rfl
  fun_induction percentUnits xs with
  | case1 =>
      change .byte 0x20 :: percentUnits ys = percentUnits (' ' :: ys)
      rw [percentUnits_cons (fun _ _ _ hc => absurd hc (by decide))]
      rfl
  | case2 a b cs x y hx hy ih => simpa [percentUnits, hx, hy] using ih
  | case3 a b cs h ih =>
      have hliteral (rest : List Char) :
          percentUnits ('%' :: a :: b :: rest) = .ofChar '%' :: percentUnits (a :: b :: rest) := by
        rw [percentUnits]
        split
        · exact absurd ‹_› (h _ _ ‹_›)
        · rfl
      simpa [hliteral] using ih
  | case4 c cs h ih =>
      -- neither a percent sign nor a space completes an escape that the text before has begun
      have hliteral (d : Char) (hd : hexValue? d = none) (rest : List Char) :
          percentUnits (c :: (cs ++ d :: rest)) = .ofChar c :: percentUnits (cs ++ d :: rest) := by
        refine percentUnits_cons ?_
        rintro a b tail rfl htail
        rcases cs with _ | ⟨x, _ | ⟨y, cs⟩⟩
        · cases htail
          exact .inl hd
        · cases htail
          exact .inr hd
        · exact (h x y cs rfl rfl).elim
      rw [List.cons_append, List.cons_append, hliteral _ hpercent, hliteral _ hspace, ih]

/-! ### The first character -/

theorem Utf8.head?_decodeLossy {b : UInt8} (h : b.toNat < 0x80) (bs : List UInt8) :
    (Utf8.decodeLossy (b :: bs)).head? = some (Char.ofNat b.toNat) := by
  simp only [Utf8.decodeLossy, Utf8.pieces, Utf8.piecesFrom, Utf8.readPiece_ascii h]
  rfl

/-- An ASCII byte at the start of a run comes first. -/
theorem head?_joinUnits {b : UInt8} (h : b.toNat < 0x80) (us : List PercentUnit)
    (run : List UInt8) : (joinUnits (run ++ [b]) us).head? = some (Char.ofNat b.toNat) := by
  have hrun (run : List UInt8) : (run ++ [b]).reverse = b :: run.reverse := by simp
  induction us generalizing run with
  | nil => rw [joinUnits, hrun, Utf8.head?_decodeLossy h]
  | cons u us ih =>
      cases u with
      | byte c => exact ih (c :: run)
      | wide c =>
          rw [joinUnits, hrun, List.head?_append, Utf8.head?_decodeLossy h, Option.some_or]

/-- **An ASCII character at the start of a text stays there**, unless it is a percent sign. -/
theorem head?_percentDecode {c : Char} (hc : c.toNat < 0x80) (hpercent : c ≠ '%') (cs : List Char) :
    (percentDecode (c :: cs)).head? = some c := by
  have hbyte : (UInt8.ofNat c.toNat).toNat = c.toNat := by
    simp only [UInt8.toNat_ofNat']
    omega
  have hunit : PercentUnit.ofChar c = .byte (UInt8.ofNat c.toNat) := if_pos hc
  rw [percentDecode, percentUnits_cons (fun _ _ _ h => absurd h hpercent), hunit, joinUnits]
  have hhead := head?_joinUnits (b := UInt8.ofNat c.toNat) (by omega) (percentUnits cs) []
  rwa [hbyte, Char.ofNat_toNat] at hhead

end Citations.Text
