/-
# Escapes are undone

The bytes of a character decode to that character, whatever stands behind them, so a text is read
back from its UTF-8 form.  The same goes for a byte and its percent escape.  Together: a text is
read back from the form that it has in a URI, and this form consists of letters, digits, percent
signs and the marks that stand for themselves.
-/
import KsyTools.Text.Percent
import Mathlib.Data.List.TakeWhile
import Mathlib.Tactic.Common
import Mathlib.Tactic.IntervalCases

namespace KsyTools.Text

/-! ## UTF-8 -/

section Heads

variable {v : ℕ} {rest : List ℕ}

lemma utf8Head_one (h : v ≤ 0x7f) : utf8Head v rest = .char (Char.ofNat v) 0 := by
  simp only [utf8Head]
  rw [if_pos (by omega)]

lemma isContinuation_low (n : ℕ) : isContinuation (n % 64 + 0x80) = true := by
  have hlow : n % 64 < 64 := Nat.mod_lt n (by decide)
  simp only [isContinuation, Bool.and_eq_true, decide_eq_true_eq]
  omega

lemma utf8Head_two (hlow : 0x7f < v) (hhigh : v ≤ 0x7ff) :
    utf8Head (v / 64 % 32 + 0xc0) ((v % 64 + 0x80) :: rest) = .char (Char.ofNat v) 1 := by
  have hvalue : (v / 64 % 32 + 0xc0 - 0xc0) * 64 + (v % 64 + 0x80 - 0x80) = v := by omega
  simp only [utf8Head, isContinuation_low, if_true, hvalue]
  rw [if_neg (by omega), if_neg (by omega), if_pos (by omega)]

/-- The second byte of three rules out overlong forms and surrogates. -/
lemma utf8Head_three (hlow : 0x7ff < v) (hhigh : v ≤ 0xffff) (hvalid : v < 0xd800 ∨ 0xdfff < v) :
    utf8Head (v / 4096 % 16 + 0xe0) ((v / 64 % 64 + 0x80) :: (v % 64 + 0x80) :: rest) =
      .char (Char.ofNat v) 2 := by
  have hsecond : secondByteOk (v / 4096 % 16 + 0xe0) (v / 64 % 64 + 0x80) = true := by
    simp only [secondByteOk, isContinuation_low, Bool.true_and]
    split_ifs <;> simp only [decide_eq_true_eq] <;> omega
  have hvalue : (v / 4096 % 16 + 0xe0 - 0xe0) * 4096 + (v / 64 % 64 + 0x80 - 0x80) * 64 +
      (v % 64 + 0x80 - 0x80) = v := by
    omega
  simp only [utf8Head, hsecond, isContinuation_low, Bool.not_true, Bool.false_eq_true, if_false,
    if_true, hvalue]
  rw [if_neg (by omega), if_neg (by omega), if_neg (by omega), if_pos (by omega)]

/-- The second byte of four rules out overlong forms and numbers that are too large. -/
lemma utf8Head_four (hlow : 0xffff < v) (hhigh : v < 0x110000) :
    utf8Head (v / 262144 % 8 + 0xf0)
        ((v / 4096 % 64 + 0x80) :: (v / 64 % 64 + 0x80) :: (v % 64 + 0x80) :: rest) =
      .char (Char.ofNat v) 3 := by
  have hsecond : secondByteOk (v / 262144 % 8 + 0xf0) (v / 4096 % 64 + 0x80) = true := by
    simp only [secondByteOk, isContinuation_low, Bool.true_and]
    split_ifs <;> simp only [decide_eq_true_eq] <;> omega
  have hvalue : (v / 262144 % 8 + 0xf0 - 0xf0) * 262144 + (v / 4096 % 64 + 0x80 - 0x80) * 4096 +
      (v / 64 % 64 + 0x80 - 0x80) * 64 + (v % 64 + 0x80 - 0x80) = v := by
    omega
  simp only [utf8Head, hsecond, isContinuation_low, Bool.not_true, Bool.false_eq_true, if_false,
    if_true, hvalue]
  rw [if_neg (by omega), if_neg (by omega), if_neg (by omega), if_neg (by omega),
    if_pos (by omega)]

end Heads

/-- Bytes that start with a character are read as this character and what is behind it. -/
lemma decodeUtf8Lossy_of_utf8Head {first : ℕ} {m : List ℕ} {c : Char}
    (hbytes : ∀ n ∈ first :: m, n < 256) (hlength : m.length ≤ 3)
    (hhead : ∀ rest, utf8Head first (m ++ rest) = .char c m.length) (rest : List UInt8) :
    decodeUtf8Lossy ((first :: m).map UInt8.ofNat ++ rest) = c :: decodeUtf8Lossy rest := by
  have hfirst : (UInt8.ofNat first).toNat = first :=
    UInt8.toNat_ofNat_of_lt (hbytes first List.mem_cons_self)
  have hmore : (m.map UInt8.ofNat).map UInt8.toNat = m := by
    rw [List.map_map]
    refine (List.map_congr_left fun n hn => ?_).trans (List.map_id m)
    exact UInt8.toNat_ofNat_of_lt (hbytes n (List.mem_cons_of_mem _ hn))
  have hseen : ((m.map UInt8.ofNat ++ rest).take 3).map UInt8.toNat =
      m ++ (rest.take (3 - m.length)).map UInt8.toNat := by
    rw [List.take_append, List.map_append, List.length_map,
      List.take_of_length_le (by rw [List.length_map]; exact hlength), hmore]
  have hleft : (m.map UInt8.ofNat ++ rest).drop m.length = rest :=
    List.drop_left' (List.length_map _)
  rw [List.map_cons, List.cons_append, decodeUtf8Lossy, hfirst, hseen, hhead]
  simp only [hleft]

/-- The bytes of a character are read back, whatever stands behind them. -/
lemma decodeUtf8Lossy_utf8EncodeChar (c : Char) (rest : List UInt8) :
    decodeUtf8Lossy (String.utf8EncodeChar c ++ rest) = c :: decodeUtf8Lossy rest := by
  have hnat : Char.ofNat c.val.toNat = c := Char.ofNat_toNat c
  have hvalid : c.val.toNat < 0xd800 ∨ 0xdfff < c.val.toNat ∧ c.val.toNat < 0x110000 := c.valid
  unfold String.utf8EncodeChar
  simp only
  generalize c.val.toNat = v at hnat hvalid ⊢
  subst hnat
  split_ifs with hone htwo hthree
  · exact decodeUtf8Lossy_of_utf8Head (m := []) (by simp; omega) (by simp)
      (fun _ => utf8Head_one hone) rest
  · exact decodeUtf8Lossy_of_utf8Head (m := [_]) (by simp; omega) (by simp)
      (fun _ => utf8Head_two (by omega) htwo) rest
  · exact decodeUtf8Lossy_of_utf8Head (m := [_, _]) (by simp; omega) (by simp)
      (fun _ => utf8Head_three (by omega) hthree (by omega)) rest
  · exact decodeUtf8Lossy_of_utf8Head (m := [_, _, _]) (by simp; omega) (by simp)
      (fun _ => utf8Head_four (by omega) (by omega)) rest

/-- A text is read back from its UTF-8 form. -/
lemma decodeUtf8Lossy_encodeUtf8 (cs : List Char) : decodeUtf8Lossy (encodeUtf8 cs) = cs := by
  induction cs with
  | nil => simp [encodeUtf8, decodeUtf8Lossy]
  | cons c rest ih =>
    rw [encodeUtf8] at ih ⊢
    rw [List.flatMap_cons, decodeUtf8Lossy_utf8EncodeChar, ih]

namespace Percent

/-! ## Percent escapes -/

/-- The digits of percent escapes. -/
def escapeDigit (n : ℕ) : Char :=
  (Nat.digitChar n).toUpper

lemma hexValue?_escapeDigit {n : ℕ} (h : n < 16) : hexValue? (escapeDigit n) = some n := by
  interval_cases n <;> rfl

lemma isAlphanum_escapeDigit {n : ℕ} (h : n < 16) : (escapeDigit n).isAlphanum = true := by
  interval_cases n <;> rfl

lemma encodeByte_of_not_isSafe {b : UInt8} (h : ¬isSafe b) :
    encodeByte b = ['%', escapeDigit (b.toNat / 16), escapeDigit (b.toNat % 16)] := by
  have hfirst : b.toNat / 16 % 16 = b.toNat / 16 := by
    have := b.toNat_lt
    omega
  rw [encodeByte, if_neg h]
  simp [hexDigits, escapeDigit, hfirst]

/-- The characters of texts in URIs. -/
def isPlain (c : Char) : Bool :=
  c.isAlphanum || c == '_' || c == '.' || c == '-' || c == '~' || c == '/' || c == '%'

lemma isPlain_of_mem_encodeByte {b : UInt8} {c : Char} (h : c ∈ encodeByte b) : isPlain c := by
  by_cases hsafe : isSafe b
  · rw [encodeByte, if_pos hsafe, List.mem_singleton] at h
    subst h
    simp only [isSafe, Bool.and_eq_true] at hsafe
    rw [isPlain, hsafe.2, Bool.true_or]
  · have hb := b.toNat_lt
    rw [encodeByte_of_not_isSafe hsafe] at h
    simp only [List.mem_cons, List.not_mem_nil, or_false] at h
    rcases h with rfl | rfl | rfl
    · rfl
    · simp [isPlain, isAlphanum_escapeDigit (show b.toNat / 16 < 16 by omega)]
    · simp [isPlain, isAlphanum_escapeDigit (show b.toNat % 16 < 16 by omega)]

lemma isPlain_of_mem_encode {cs : List Char} {c : Char} (h : c ∈ encode cs) : isPlain c := by
  obtain ⟨b, -, hc⟩ := List.mem_flatMap.mp h
  exact isPlain_of_mem_encodeByte hc

lemma toNat_lt_of_isAlphanum {c : Char} (h : c.isAlphanum) : c.toNat < 128 := by
  have hcases : (decide ('A'.val ≤ c.val ∧ c.val ≤ 'Z'.val) ||
      ('a'.val ≤ c.val && c.val ≤ 'z'.val) || ('0'.val ≤ c.val && c.val ≤ '9'.val)) = true := h
  simp only [Bool.or_eq_true, Bool.and_eq_true, decide_eq_true_eq, UInt32.le_iff_toNat_le] at hcases
  have hval : c.val.toNat = c.toNat := rfl
  have hlimits : 'Z'.val.toNat = 90 ∧ 'z'.val.toNat = 122 ∧ '9'.val.toNat = 57 := by decide
  omega

/-- Plain characters are in ASCII. -/
lemma toNat_lt_of_isPlain {c : Char} (h : isPlain c) : c.toNat < 128 := by
  simp only [isPlain, Bool.or_eq_true, beq_iff_eq] at h
  rcases h with (((((h | rfl) | rfl) | rfl) | rfl) | rfl) | rfl
  · exact toNat_lt_of_isAlphanum h
  all_goals decide

/-- A byte is read back, whatever stands behind it. -/
lemma unescape_encodeByte (b : UInt8) (rest : List Char) :
    unescape (encodeByte b ++ rest) = b :: unescape rest := by
  have hb := b.toNat_lt
  by_cases hsafe : isSafe b
  · rw [encodeByte, if_pos hsafe, List.singleton_append]
    simp only [isSafe, Bool.and_eq_true, decide_eq_true_eq] at hsafe
    obtain ⟨hascii, hchar⟩ := hsafe
    have hnat : (Char.ofNat b.toNat).toNat = b.toNat := by
      rw [Char.ofNat, dif_pos (.inl (by omega))]
      rfl
    have hpercent : Char.ofNat b.toNat ≠ '%' := by
      intro heq
      rw [heq] at hchar
      simp at hchar
    rw [unescape]
    · rw [hnat, UInt8.ofNat_toNat]
    · intro a b' rest' heq
      exact absurd heq hpercent
  · rw [encodeByte_of_not_isSafe hsafe]
    simp only [List.cons_append, List.nil_append, unescape,
      hexValue?_escapeDigit (show b.toNat / 16 < 16 by omega),
      hexValue?_escapeDigit (show b.toNat % 16 < 16 by omega)]
    rw [show b.toNat / 16 * 16 + b.toNat % 16 = b.toNat by omega, UInt8.ofNat_toNat]

lemma unescape_encode (bytes : List UInt8) : unescape (bytes.flatMap encodeByte) = bytes := by
  induction bytes with
  | nil => rfl
  | cons b rest ih => rw [List.flatMap_cons, unescape_encodeByte, ih]

/-- A text in ASCII is a single run. -/
lemma decode_of_ascii {cs : List Char} (h : ∀ c ∈ cs, c.toNat < 128) :
    decode cs = decodeUtf8Lossy (unescape cs) := by
  cases cs with
  | nil => simp [decode, unescape, decodeUtf8Lossy]
  | cons c rest =>
    have hrun : (rest.takeWhile fun c => c.toNat < 128) = rest := by
      rw [List.takeWhile_eq_self_iff]
      intro d hd
      simpa using h d (List.mem_cons_of_mem _ hd)
    rw [decode, if_pos (h c List.mem_cons_self)]
    simp [hrun, decode]

/-- A text is read back from the form that it has in a URI. -/
theorem decode_encode (cs : List Char) : decode (encode cs) = cs := by
  have hascii : ∀ c ∈ encode cs, c.toNat < 128 := fun c hc =>
    toNat_lt_of_isPlain (isPlain_of_mem_encode hc)
  calc decode (encode cs) = decodeUtf8Lossy (unescape (encode cs)) := decode_of_ascii hascii
    _ = decodeUtf8Lossy (encodeUtf8 cs) := by rw [encode, unescape_encode]
    _ = cs := decodeUtf8Lossy_encodeUtf8 cs

/-- A slash stands for itself. -/
lemma encode_cons_slash (cs : List Char) : encode ('/' :: cs) = '/' :: encode cs := by
  rfl

end Percent

end KsyTools.Text
