import Parley.Json.Printer
import Parley.Json.Reader

/-! The bytes of printed text, and how the parts of a value that have no parts of their own are read
back from them: quoted text piece by piece, integers digit by digit. -/
namespace Parley.Json

def utf8 (cs : List Char) : List UInt8 := cs.flatMap String.utf8EncodeChar

@[simp] theorem utf8_nil : utf8 [] = [] := rfl

theorem utf8_cons (c : Char) (cs : List Char) :
    utf8 (c :: cs) = String.utf8EncodeChar c ++ utf8 cs := List.flatMap_cons

@[simp] theorem utf8_append (cs cs' : List Char) : utf8 (cs ++ cs') = utf8 cs ++ utf8 cs' :=
  List.flatMap_append

theorem byteArray_toList_loop (b : ByteArray) (i : Nat) (r : List UInt8) :
    ByteArray.toList.loop b i r = r.reverse ++ b.data.toList.drop i := by
  fun_induction ByteArray.toList.loop b i r with
  | case1 i r hi ih =>
    have hlt : i < b.data.toList.length := hi
    rw [ih, List.drop_eq_getElem_cons hlt, List.reverse_cons, List.append_assoc,
      List.singleton_append]
    have hget : b.get! i = b.data.toList[i] := by
      rw [Array.getElem_toList]
      exact getElem!_pos b.data i hi
    rw [hget]
  | case2 i r hi =>
    have hle : b.data.toList.length ≤ i := Nat.le_of_not_lt hi
    rw [List.drop_eq_nil_of_le hle, List.append_nil]

theorem byteArray_toList (b : ByteArray) : b.toList = b.data.toList :=
  byteArray_toList_loop b 0 []

theorem toList_toUTF8 (cs : List Char) : (String.ofList cs).toUTF8.toList = utf8 cs := by
  rw [byteArray_toList, String.toUTF8_eq_toByteArray, String.toByteArray_ofList]
  exact List.toList_data_toByteArray

theorem fromUTF8?_utf8 (cs : List Char) :
    String.fromUTF8? (utf8 cs).toByteArray = some (String.ofList cs) := by
  have hv : (utf8 cs).toByteArray.IsValidUTF8 := ⟨cs, rfl⟩
  unfold String.fromUTF8?
  rw [dif_pos hv, Option.some.injEq, ← String.toByteArray_inj, String.toByteArray_ofList]
  rfl

theorem utf8_ascii {c : Char} (h : c.toNat < 128) :
    String.utf8EncodeChar c = [UInt8.ofNat c.toNat] := by
  have hle : c.val.toNat ≤ 127 := Nat.le_of_lt_succ h
  simp only [String.utf8EncodeChar, if_pos hle]
  rfl

theorem le_of_mem_utf8 {c : Char} (h : 128 ≤ c.toNat) {b : UInt8}
    (hb : b ∈ String.utf8EncodeChar c) : 128 ≤ b := by
  have hlt : ¬ c.val.toNat ≤ 127 := Nat.not_le_of_lt h
  simp only [String.utf8EncodeChar, if_neg hlt] at hb
  rw [UInt8.le_iff_toNat_le]
  split at hb
  · simp only [List.mem_cons, List.not_mem_nil, or_false] at hb
    rcases hb with rfl | rfl
    · simp; omega
    · simp; omega
  · split at hb
    · simp only [List.mem_cons, List.not_mem_nil, or_false] at hb
      rcases hb with rfl | rfl | rfl
      all_goals simp; omega
    · simp only [List.mem_cons, List.not_mem_nil, or_false] at hb
      rcases hb with rfl | rfl | rfl | rfl
      all_goals simp; omega

theorem pieces?_unit {a b c d : UInt8} {u : Nat} (h : hexUnit? a b c d = some u)
    (rest : List UInt8) :
    pieces? (92 :: 117 :: a :: b :: c :: d :: rest) =
      (pieces? rest).map fun p => (.unit u :: p.1, p.2) := by
  rw [pieces?, h]
  cases pieces? rest <;> rfl

theorem pieces?_short {e b : UInt8} (h : shortEscape? e = some b) (rest : List UInt8) :
    pieces? (92 :: e :: rest) = (pieces? rest).map fun p => (.byte b :: p.1, p.2) := by
  have hu : e ≠ 117 := by
    rintro rfl
    cases h
  -- An escape of four digits comes first in the reader, so it has to be ruled out.
  rw [pieces?, h]
  · cases pieces? rest <;> rfl
  · rintro a b c d rest rfl
    exact absurd rfl hu

def IsPlain (b : UInt8) : Prop := b ≠ quoteMark ∧ 32 ≤ b ∧ b ≠ backslash

theorem pieces?_plain {bytes : List UInt8} (h : ∀ b ∈ bytes, IsPlain b) (rest : List UInt8) :
    pieces? (bytes ++ rest) = (pieces? rest).map fun p => (bytes.map .byte ++ p.1, p.2) := by
  induction bytes with
  | nil => simp
  | cons b bytes ih =>
    obtain ⟨hq, hlow, hb⟩ := h b List.mem_cons_self
    have hlow : ¬ b < 32 := UInt8.not_lt.mpr hlow
    rw [List.cons_append, pieces?, if_neg hq, if_neg (not_or.mpr ⟨hlow, hb⟩),
      ih fun b' hb' => h b' (List.mem_cons_of_mem b hb')]
    · cases pieces? rest <;> rfl
    · rintro a b c d rest rfl
      exact absurd rfl hb
    · rintro e rest rfl
      exact absurd rfl hb

theorem join?_bytes (bytes : List UInt8) (ps : List Piece) :
    join? (bytes.map .byte ++ ps) = (join? ps).map (bytes ++ ·) := by
  induction bytes with
  | nil => simp
  | cons b bytes ih =>
    rw [List.map_cons, List.cons_append, join?, ih]
    cases join? ps <;> rfl

theorem join?_unit {c : Char} (h : c.toNat < 32) (ps : List Piece) :
    join? (.unit c.toNat :: ps) = (join? ps).map (String.utf8EncodeChar c ++ ·) := by
  have hlow : c.toNat < 0xD800 := by omega
  rw [join?.eq_def]
  simp only [charBytes, Char.ofNat_toNat, hlow, true_or, if_true]

/-- Pieces that a printed character is read as, and that are joined to the character again. -/
structure Reads (c : Char) (ps : List Piece) : Prop where
  pieces rest : pieces? (utf8 (escape c) ++ rest) =
    (pieces? rest).map fun p => (ps ++ p.1, p.2)
  join more : join? (ps ++ more) = (join? more).map (String.utf8EncodeChar c ++ ·)

def shortEscapes : List (Char × Char) :=
  [('"', '"'), ('\\', '\\'), ('\n', 'n'), ('\r', 'r'), ('\t', 't'), (Char.ofNat 8, 'b'),
    (Char.ofNat 12, 'f')]

theorem shortEscapes_spec : ∀ p ∈ shortEscapes, escape p.1 = ['\\', p.2] ∧
    shortEscape? (UInt8.ofNat p.2.toNat) = some (UInt8.ofNat p.1.toNat) ∧
    p.1.toNat < 128 ∧ p.2.toNat < 128 := by
  decide

theorem reads_short {c e : Char} (h : (c, e) ∈ shortEscapes) :
    Reads c [.byte (UInt8.ofNat c.toNat)] where
  pieces rest := by
    obtain ⟨hc, he, -, ha⟩ := shortEscapes_spec (c, e) h
    rw [hc, utf8_cons, utf8_cons, utf8_ascii ha]
    exact pieces?_short he rest
  join more := by
    obtain ⟨-, -, ha, -⟩ := shortEscapes_spec (c, e) h
    rw [utf8_ascii ha]
    exact join?_bytes [_] more

/-- Any other character is printed by number or as it is. -/
theorem escape_eq {c : Char} (h : ∀ e, (c, e) ∉ shortEscapes) :
    escape c = if c.toNat < 32 then
      ['\\', 'u', '0', '0', hexDigit (c.toNat / 16), hexDigit (c.toNat % 16)] else [c] := by
  have hne (n : Nat) (hc : c ≠ Char.ofNat n) : c.toNat ≠ n :=
    fun he => hc (by rw [← he, Char.ofNat_toNat])
  simp only [shortEscapes, List.mem_cons, Prod.mk.injEq, List.not_mem_nil, or_false, not_or] at h
  obtain ⟨h₁, h₂, h₃, h₄, h₅, h₆, h₇⟩ :
      c ≠ '"' ∧ c ≠ '\\' ∧ c ≠ '\n' ∧ c ≠ '\r' ∧ c ≠ '\t' ∧ c.toNat ≠ 8 ∧ c.toNat ≠ 12 := by
    refine ⟨?_, ?_, ?_, ?_, ?_, hne 8 ?_, hne 12 ?_⟩
    all_goals
      intro hc
      simp [hc] at h
  simp only [escape, h₁, h₂, h₃, h₄, h₅, h₆, h₇, if_false]

theorem hexUnit?_low : ∀ n < 32,
    hexUnit? 48 48 (UInt8.ofNat (hexDigit (n / 16)).toNat)
      (UInt8.ofNat (hexDigit (n % 16)).toNat) = some n := by
  decide

theorem hexDigit_ascii : ∀ n < 16, (hexDigit n).toNat < 128 := by
  decide

theorem reads_control {c : Char} (hc : escape c =
      ['\\', 'u', '0', '0', hexDigit (c.toNat / 16), hexDigit (c.toNat % 16)])
    (h : c.toNat < 32) : Reads c [.unit c.toNat] where
  pieces rest := by
    have hhigh : (hexDigit (c.toNat / 16)).toNat < 128 := hexDigit_ascii _ (by omega)
    have hlow : (hexDigit (c.toNat % 16)).toNat < 128 := hexDigit_ascii _ (by omega)
    rw [hc]
    simp only [utf8_cons, utf8_ascii hhigh, utf8_ascii hlow]
    exact pieces?_unit (hexUnit?_low c.toNat h) rest
  join more := join?_unit h more

theorem reads_plain {c : Char} (hc : escape c = [c]) (hq : c ≠ '"') (hb : c ≠ '\\')
    (h : ¬ c.toNat < 32) : Reads c ((String.utf8EncodeChar c).map .byte) where
  pieces rest := by
    rw [hc, utf8_cons, utf8_nil, List.append_nil]
    refine pieces?_plain (fun b hm => ?_) rest
    by_cases ha : c.toNat < 128
    · have hne {d : Char} (hd : c ≠ d) : c.toNat ≠ d.toNat := fun he => hd (Char.toNat_inj.mp he)
      have hquote : c.toNat ≠ 34 := hne hq
      have hslash : c.toNat ≠ 92 := hne hb
      rw [utf8_ascii ha, List.mem_singleton] at hm
      have hbyte : b.toNat = c.toNat := by
        rw [hm, UInt8.toNat_ofNat']
        omega
      refine ⟨fun he => hquote ?_, UInt8.le_iff_toNat_le.mpr ?_, fun he => hslash ?_⟩
      · rw [← hbyte, he]
        rfl
      · rw [hbyte]
        exact Nat.le_of_not_lt h
      · rw [← hbyte, he]
        rfl
    · have hhigh : 128 ≤ b.toNat :=
        UInt8.le_iff_toNat_le.mp (le_of_mem_utf8 (Nat.le_of_not_lt ha) hm)
      refine ⟨?_, UInt8.le_iff_toNat_le.mpr (Nat.le_trans (by decide) hhigh), ?_⟩
      · rintro rfl
        exact absurd hhigh (by decide)
      · rintro rfl
        exact absurd hhigh (by decide)
  join more := join?_bytes _ more

theorem exists_reads (c : Char) : ∃ ps, Reads c ps := by
  by_cases hs : ∃ e, (c, e) ∈ shortEscapes
  · obtain ⟨e, he⟩ := hs
    exact ⟨_, reads_short he⟩
  · have hn : ∀ e, (c, e) ∉ shortEscapes := fun e he => hs ⟨e, he⟩
    have hesc := escape_eq hn
    by_cases hlow : c.toNat < 32
    · rw [if_pos hlow] at hesc
      exact ⟨_, reads_control hesc hlow⟩
    · rw [if_neg hlow] at hesc
      refine ⟨_, reads_plain hesc ?_ ?_ hlow⟩
      · rintro rfl
        exact hn '"' (by decide)
      · rintro rfl
        exact hn '\\' (by decide)

/-- A quoted text is read back. -/
theorem pieces?_quoted (cs : List Char) (rest : List UInt8) :
    ∃ ps, pieces? (utf8 (cs.flatMap escape) ++ quoteMark :: rest) = some (ps, rest) ∧
      join? ps = some (utf8 cs) := by
  induction cs with
  | nil => exact ⟨[], by simp [pieces?, quoteMark], rfl⟩
  | cons c cs ih =>
    obtain ⟨ps, hp, hj⟩ := ih
    obtain ⟨own, hc⟩ := exists_reads c
    refine ⟨own ++ ps, ?_, ?_⟩
    · rw [List.flatMap_cons, utf8_append, List.append_assoc, hc.pieces, hp, Option.map_some]
    · rw [hc.join, hj, Option.map_some, utf8_cons]

theorem utf8_quote (s : String) :
    utf8 (quote s) = quoteMark :: (utf8 (s.toList.flatMap escape) ++ [quoteMark]) := by
  rw [quote, utf8_cons, utf8_append]
  rfl

theorem exists_quoted (s : String) (rest : List UInt8) :
    ∃ bytes ps, utf8 (quote s) ++ rest = quoteMark :: bytes ∧ pieces? bytes = some (ps, rest) ∧
      text? ps = some s := by
  obtain ⟨ps, hp, hj⟩ := pieces?_quoted s.toList rest
  refine ⟨_, ps, ?_, hp, ?_⟩
  · rw [utf8_quote, List.cons_append, List.append_assoc]
    rfl
  · rw [text?, hj]
    exact (fromUTF8?_utf8 s.toList).trans (congrArg some String.ofList_toList)

theorem isDigit_bounds {c : Char} (h : c.isDigit = true) : 48 ≤ c.toNat ∧ c.toNat ≤ 57 :=
  Char.isDigit_iff_toNat.mp h

theorem utf8_digits {cs : List Char} (h : ∀ c ∈ cs, c.isDigit = true) :
    utf8 cs = cs.map fun c => UInt8.ofNat c.toNat := by
  induction cs with
  | nil => rfl
  | cons c cs ih =>
    obtain ⟨-, hc⟩ := isDigit_bounds (h c List.mem_cons_self)
    rw [utf8_cons, utf8_ascii (by omega), ih fun d hd => h d (List.mem_cons_of_mem c hd)]
    rfl

theorem isDigitByte_ofNat {c : Char} (h : c.isDigit = true) :
    isDigitByte (UInt8.ofNat c.toNat) = true ∧ digitOf (UInt8.ofNat c.toNat) = c.toNat - 48 := by
  obtain ⟨hl, hu⟩ := isDigit_bounds h
  have hb : (UInt8.ofNat c.toNat).toNat = c.toNat := by
    rw [UInt8.toNat_ofNat']
    omega
  refine ⟨?_, by rw [digitOf, hb]⟩
  simp only [isDigitByte, Bool.and_eq_true, decide_eq_true_eq, UInt8.le_iff_toNat_le, hb]
  exact ⟨hl, hu⟩

/-- What can stand behind a value in a larger one. -/
def Stops (rest : List UInt8) : Prop := ∀ b ∈ rest.head?, b = 44 ∨ b = 93 ∨ b = 125

theorem digits?_digits {cs : List Char} (hne : cs ≠ []) (h : ∀ c ∈ cs, c.isDigit = true)
    {rest : List UInt8} (hr : Stops rest) :
    digits? (utf8 cs ++ rest) = some (cs.map fun c => c.toNat - 48, rest) := by
  have hall : ∀ b ∈ utf8 cs, isDigitByte b = true := by
    rw [utf8_digits h]
    intro b hb
    obtain ⟨c, hc, rfl⟩ := List.mem_map.mp hb
    exact (isDigitByte_ofNat (h c hc)).1
  have hstop : rest.takeWhile isDigitByte = [] ∧ rest.dropWhile isDigitByte = rest := by
    cases rest with
    | nil => exact ⟨rfl, rfl⟩
    | cons b rest =>
      have hb : isDigitByte b = false := by rcases hr b rfl with rfl | rfl | rfl <;> rfl
      exact ⟨by rw [List.takeWhile_cons, hb]; rfl, by rw [List.dropWhile_cons, hb]; rfl⟩
  have htake : (utf8 cs ++ rest).takeWhile isDigitByte = utf8 cs := by
    rw [List.takeWhile_append_of_pos hall, hstop.1, List.append_nil]
  have hdrop : (utf8 cs ++ rest).dropWhile isDigitByte = rest := by
    rw [List.dropWhile_append_of_pos hall, hstop.2]
  have hsome : (utf8 cs).isEmpty = false := by
    cases cs with
    | nil => exact absurd rfl hne
    | cons c cs => simp [utf8_cons]
  simp only [digits?, htake, hdrop, hsome, Bool.false_eq_true, if_false, Option.some.injEq,
    Prod.mk.injEq, and_true]
  rw [utf8_digits h, List.map_map]
  exact List.map_congr_left fun c hc => (isDigitByte_ofNat (h c hc)).2

def digitsOf (n : Nat) : List Nat := (Nat.toDigits 10 n).map fun c => c.toNat - 48

theorem digitsValue_digitsOf (n : Nat) : Literal.digitsValue (digitsOf n) = n := by
  unfold Literal.digitsValue digitsOf
  rw [List.foldl_map]
  exact Nat.ofDigitChars_ten_toDigits

theorem head?_digitsOf {n : Nat} (h : 0 < n) : (digitsOf n).head? ≠ some 0 := by
  induction n using Nat.base_induction 10 (by decide) with
  | single m hm =>
    rw [digitsOf, Nat.toDigits_of_lt_base hm]
    have hd := Nat.toNat_digitChar_sub_48_of_lt_ten hm
    simp [hd]
    omega
  | digit m k hk hm ih =>
    have hne : digitsOf m ≠ [] := by simp [digitsOf, Nat.toDigits_ne_nil]
    rw [digitsOf, ← Nat.toDigits_append_toDigits (by decide) hm hk, List.map_append]
    change ((digitsOf m ++ _).head? : Option Nat) ≠ some 0
    rw [List.head?_append, List.head?_eq_some_head hne, Option.some_or,
      ← List.head?_eq_some_head hne]
    exact ih hm

/-- No digit stands behind a leading zero. -/
theorem digitsOf_no_leading_zero (n : Nat) :
    ¬ ((digitsOf n).head? = some 0 ∧ 1 < (digitsOf n).length) := by
  rintro ⟨hz, hl⟩
  cases n with
  | zero => simp [digitsOf] at hl
  | succ n => exact head?_digitsOf (Nat.succ_pos n) hz

theorem literal?_digits (negative : Bool) (n : Nat) {rest : List UInt8} (hr : Stops rest) :
    literal? negative (utf8 (Nat.toDigits 10 n) ++ rest) =
      some (⟨negative, digitsOf n, [], none⟩, rest) := by
  have hd : digits? (utf8 (Nat.toDigits 10 n) ++ rest) = some (digitsOf n, rest) :=
    digits?_digits Nat.toDigits_ne_nil
      (fun c hc => Nat.isDigit_of_mem_toDigits (by decide) (by decide) hc) hr
  have hz := digitsOf_no_leading_zero n
  unfold literal?
  rw [hd]
  -- What stands behind begins neither a fraction nor an exponent.
  cases rest with
  | nil => simpa using hz
  | cons b rest => rcases hr b rfl with rfl | rfl | rfl <;> simpa using hz

theorem exists_digit (n : Nat) :
    ∃ b more, utf8 (Nat.toDigits 10 n) = b :: more ∧ isDigitByte b = true := by
  have hdigit : ∀ c ∈ Nat.toDigits 10 n, c.isDigit = true := fun c hc =>
    Nat.isDigit_of_mem_toDigits (by decide) (by decide) hc
  rw [utf8_digits hdigit]
  cases hd : Nat.toDigits 10 n with
  | nil => exact absurd hd Nat.toDigits_ne_nil
  | cons c cs =>
    rw [hd] at hdigit
    exact ⟨_, _, rfl, (isDigitByte_ofNat (hdigit c List.mem_cons_self)).1⟩

theorem readLiteral?_int (negative : Bool) (n : Nat) {rest : List UInt8} (hr : Stops rest)
    (hu : negative = false → n < 18446744073709551616)
    (hs : negative = true → 0 < n ∧ n ≤ 9223372036854775808) :
    readLiteral? negative (utf8 (Nat.toDigits 10 n) ++ rest) =
      some (.number (some (.int (if negative then -n else n))), rest) := by
  unfold readLiteral?
  rw [literal?_digits negative n hr]
  cases negative with
  | false =>
    have hfit : Literal.fits n = true := by simpa [Literal.fits] using hu rfl
    simp [Literal.number?, digitsValue_digitsOf, hfit]
  | true =>
    obtain ⟨hpos, hle⟩ := hs rfl
    simp [Literal.number?, digitsValue_digitsOf, hpos, hle]

end Parley.Json
