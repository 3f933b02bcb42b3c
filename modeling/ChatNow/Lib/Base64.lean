import Mathlib.Data.List.Basic

/-!
# Base64

The padded encoding of RFC 4648: three bytes are four characters of six bits, and a last group of
one or two bytes is filled up with padding characters (`encode`).

`decodeBlock` reads groups of four characters, with a padding character as six zero bits. So it
gives three bytes for every group, and the true ones only up to as many zeros as there was padding
(`decodeBlock_encode`). How many there were can be counted in the text (`count_encode`).
-/

namespace Base64

/-- The alphabet, in the order of its values. -/
def alphabet : List Char :=
  "ABCDEFGHIJKLMNOPQRSTUVWXYZabcdefghijklmnopqrstuvwxyz0123456789+/".toList

/-- The character for six bits. -/
def char (n : ℕ) : Char := alphabet.getD n '='

/-- The six bits of a character. -/
def sextet (c : Char) : Option ℕ := if c = '=' then some 0 else alphabet.idxOf? c

def encode : List UInt8 → List Char
  | [] => []
  | [a] => [char (a.toNat / 4), char (a.toNat % 4 * 16), '=', '=']
  | [a, b] =>
    [char (a.toNat / 4), char (a.toNat % 4 * 16 + b.toNat / 16), char (b.toNat % 16 * 4), '=']
  | a :: b :: c :: rest =>
    char (a.toNat / 4) :: char (a.toNat % 4 * 16 + b.toNat / 16) ::
      char (b.toNat % 16 * 4 + c.toNat / 64) :: char (c.toNat % 64) :: encode rest

def decodeBlock : List Char → Option (List UInt8)
  | [] => some []
  | w :: x :: y :: z :: rest => do
    let w ← sextet w
    let x ← sextet x
    let y ← sextet y
    let z ← sextet z
    let out ← decodeBlock rest
    return .ofNat (w * 4 + x / 16) :: .ofNat (x % 16 * 16 + y / 4) :: .ofNat (y % 4 * 64 + z) :: out
  | _ => none

/-- The padding characters behind so many bytes. -/
def pads (n : ℕ) : ℕ := (3 - n % 3) % 3

/-! ### Single characters -/

theorem sextet_char {n : ℕ} (h : n < 64) : sextet (char n) = some n := by
  have hall : ∀ n < 64, sextet (char n) = some n := by decide +kernel
  exact hall n h

theorem char_ne_pad {n : ℕ} (h : n < 64) : char n ≠ '=' := by
  have hall : ∀ n < 64, char n ≠ '=' := by decide +kernel
  exact hall n h

theorem sextet_pad : sextet '=' = some 0 := rfl

/-! ### Whole texts -/

theorem length_encode (x : List UInt8) : (encode x).length = (x.length + 2) / 3 * 4 := by
  induction x using encode.induct with
  | case1 => rfl
  | case2 a => simp only [encode, List.length_cons, List.length_nil]
  | case3 a b => simp only [encode, List.length_cons, List.length_nil]
  | case4 a b c rest ih =>
    simp only [encode, List.length_cons, ih]
    omega

/-- **The padding is counted in the text.** -/
theorem count_encode (x : List UInt8) : (encode x).count '=' = pads x.length := by
  have hchar (n : ℕ) (l : List Char) (h : n < 64) : (char n :: l).count '=' = l.count '=' :=
    List.count_cons_of_ne (char_ne_pad h)
  induction x using encode.induct with
  | case1 => rfl
  | case2 a =>
    have ha := a.toNat_lt
    rw [encode, hchar _ _ (by omega), hchar _ _ (by omega)]
    rfl
  | case3 a b =>
    have ha := a.toNat_lt
    have hb := b.toNat_lt
    rw [encode, hchar _ _ (by omega), hchar _ _ (by omega), hchar _ _ (by omega)]
    rfl
  | case4 a b c rest ih =>
    have ha := a.toNat_lt
    have hb := b.toNat_lt
    have hc := c.toNat_lt
    rw [encode, hchar _ _ (by omega), hchar _ _ (by omega), hchar _ _ (by omega),
      hchar _ _ (by omega), ih]
    simp only [List.length_cons, pads]
    omega

theorem ofNat_eq {n : ℕ} {a : UInt8} (h : n = a.toNat) : UInt8.ofNat n = a := by
  rw [h, UInt8.ofNat_toNat]

/-- **Reading in blocks** what was written gives the bytes, and a zero for each padding
character. -/
theorem decodeBlock_encode (x : List UInt8) :
    decodeBlock (encode x) = some (x ++ List.replicate (pads x.length) 0) := by
  induction x using encode.induct with
  | case1 => rfl
  | case2 a =>
    have ha := a.toNat_lt
    rw [encode, decodeBlock, sextet_char (by omega), sextet_char (by omega), sextet_pad]
    simp only [Option.bind_eq_bind, Option.bind_some, decodeBlock, Option.pure_def]
    rw [ofNat_eq (a := a) (by omega), ofNat_eq (a := 0) (by simp), ofNat_eq (a := 0) (by simp)]
    rfl
  | case3 a b =>
    have ha := a.toNat_lt
    have hb := b.toNat_lt
    rw [encode, decodeBlock, sextet_char (by omega), sextet_char (by omega),
      sextet_char (by omega), sextet_pad]
    simp only [Option.bind_eq_bind, Option.bind_some, decodeBlock, Option.pure_def]
    rw [ofNat_eq (a := a) (by omega), ofNat_eq (a := b) (by omega),
      ofNat_eq (a := 0) (by simp)]
    rfl
  | case4 a b c rest ih =>
    have ha := a.toNat_lt
    have hb := b.toNat_lt
    have hc := c.toNat_lt
    rw [encode, decodeBlock, sextet_char (by omega), sextet_char (by omega),
      sextet_char (by omega), sextet_char (by omega), ih]
    simp only [Option.bind_eq_bind, Option.bind_some, Option.pure_def]
    have hpads : pads (a :: b :: c :: rest).length = pads rest.length := by
      simp only [List.length_cons, pads]
      omega
    rw [ofNat_eq (a := a) (by omega), ofNat_eq (a := b) (by omega), ofNat_eq (a := c) (by omega),
      hpads]
    rfl

end Base64
