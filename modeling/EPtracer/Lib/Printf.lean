import EPtracer.Lib.CString

/-!
# Formatted output

`format` interprets a `printf` format string: literal text, and conversions
`%[0][width][l..]c`.  An argument carries the C type it is passed as (`CArg`).
The result is `none` where C leaves the call undefined: a conversion of another
type than its argument, a missing argument, or an unfinished conversion.
Surplus arguments are ignored, as in C.

`snprintf` keeps what fits its buffer and terminates it.

The numeric conversions write no quote, no newline and no NUL (`Plain`), and
their lengths have bounds.  `decimalValue` inverts `decimal`, so `signed` is
injective.
-/

namespace CText

/-! ## Numbers -/

/-- The bytes of ASCII characters. -/
def charBytes (cs : List Char) : Bytes := cs.map fun c => UInt8.ofNat c.toNat

/-- `%u` and `%lu`. -/
def decimal (n : Nat) : Bytes := charBytes (Nat.toDigits 10 n)

/-- `%x` and `%lx`. -/
def hex (n : Nat) : Bytes := charBytes (Nat.toDigits 16 n)

/-- `%d` and `%ld`. -/
def signed : Int → Bytes
  | .ofNat n => decimal n
  | .negSucc n => 45 :: decimal (n + 1)

/-- `%p`, as the GNU C library prints it. -/
def pointer (v : UInt64) : Bytes :=
  if v = 0 then ascii "(nil)" else ascii "0x" ++ hex v.toNat

/-! ## Formats -/

/-- An argument of a call, with the type it is passed as. -/
inductive CArg where
  | int (v : Int32)
  | uint (v : UInt32)
  | long (v : Int64)
  | ulong (v : UInt64)
  | ptr (v : UInt64)
  | str (s : Bytes)

/-- A conversion as far as it has been read. -/
structure Directive where
  /-- The `0` flag. -/
  zero : Bool := false
  width : Nat := 0
  /-- The number of `l` modifiers. -/
  long : Nat := 0

/-- Fill up to the minimum width on the left. -/
def Directive.pad (d : Directive) (b : Bytes) : Bytes :=
  if d.width = 0 then b
  else List.replicate (d.width - b.length) (if d.zero then 48 else 32) ++ b

/-- Write one argument under the conversion letter `c`. -/
def Directive.convert (d : Directive) (c : Char) (a : CArg) : Option Bytes :=
  match decide (0 < d.long), c, a with
  | false, 'd', .int v => some (d.pad (signed v.toInt))
  | false, 'u', .uint v => some (d.pad (decimal v.toNat))
  | true, 'd', .long v => some (d.pad (signed v.toInt))
  | true, 'u', .ulong v => some (d.pad (decimal v.toNat))
  | true, 'x', .ulong v => some (d.pad (hex v.toNat))
  | false, 'p', .ptr v => some (d.pad (pointer v))
  | false, 's', .str s => some (d.pad s)
  | _, _, _ => none

/-- Interpret a format.  The middle argument is the conversion being read. -/
def formatFrom : List Char → Option Directive → List CArg → Option Bytes
  | [], none, _ => some []
  | [], some _, _ => none
  | c :: cs, none, args =>
      if c = '%' then formatFrom cs (some {}) args
      else (formatFrom cs none args).map (UInt8.ofNat c.toNat :: ·)
  | c :: cs, some d, args =>
      if c = '0' ∧ d.width = 0 then formatFrom cs (some { d with zero := true }) args
      else if c.isDigit then
        formatFrom cs (some { d with width := d.width * 10 + (c.toNat - 48) }) args
      else if c = 'l' then formatFrom cs (some { d with long := d.long + 1 }) args
      else
        match args with
        | [] => none
        | a :: args =>
            match d.convert c a with
            | none => none
            | some b => (formatFrom cs none args).map (b ++ ·)

/-- The text a `printf` call writes. -/
def format (fmt : String) (args : List CArg) : Option Bytes := formatFrom fmt.toList none args

/-- The form in which a format given as a literal is evaluated. -/
theorem format_ofList (cs : List Char) (args : List CArg) :
    format (String.ofList cs) args = formatFrom cs none args := by
  simp [format]

theorem ascii_ofList (cs : List Char) : ascii (String.ofList cs) = charBytes cs := by
  simp [ascii, charBytes]

/-- The buffer after `snprintf(buf, size, fmt, args)`: what fits, terminated. -/
def snprintf (size : Nat) (fmt : String) (args : List CArg) : Option Bytes :=
  (format fmt args).map fun out => out.take (size - 1) ++ [0]

/-- Text shorter than its buffer is kept. -/
theorem snprintf_of_length_lt {size : Nat} {fmt : String} {args : List CArg} {out : Bytes}
    (hformat : format fmt args = some out) (hlen : out.length < size) :
    snprintf size fmt args = some (out ++ [0]) := by
  rw [snprintf, hformat, Option.map_some, List.take_of_length_le (by omega)]

/-- A `printf` call, with what it reads. -/
structure PrintfCall where
  fmt : String
  args : List CArg

/-! ## Text of numbers -/

/-- Text without quotes, newlines and NULs. -/
def Plain (b : Bytes) : Prop := ∀ c ∈ b, c ≠ 34 ∧ c ≠ 10 ∧ c ≠ 0

theorem Plain.append {a b : Bytes} (ha : Plain a) (hb : Plain b) : Plain (a ++ b) := by
  intro c hc
  rcases List.mem_append.mp hc with h | h
  · exact ha c h
  · exact hb c h

theorem mem_toDigits {b n : Nat} (hb : 1 < b) {c : Char} (hc : c ∈ Nat.toDigits b n) :
    ∃ d < b, c = Nat.digitChar d := by
  induction n using Nat.strong_induction_on with
  | _ n ih =>
      rw [Nat.toDigits_eq_if hb] at hc
      split at hc
      next hlt => exact ⟨n, hlt, by simpa using hc⟩
      next hge =>
        rcases List.mem_append.mp hc with hc | hc
        · exact ih (n / b) (Nat.div_lt_self (by omega) hb) hc
        · exact ⟨n % b, Nat.mod_lt _ (by omega), by simpa using hc⟩

theorem plain_digitChar : ∀ d < 16, UInt8.ofNat (Nat.digitChar d).toNat ≠ 34 ∧
    UInt8.ofNat (Nat.digitChar d).toNat ≠ 10 ∧ UInt8.ofNat (Nat.digitChar d).toNat ≠ 0 := by
  decide

theorem toNat_digitChar_lt : ∀ d < 10, (Nat.digitChar d).toNat < 256 := by
  decide

theorem isDigit_digitChar : ∀ d < 10, isDigit (UInt8.ofNat (Nat.digitChar d).toNat) = true := by
  decide

theorem plain_charBytes_toDigits {b : Nat} (hb : 1 < b) (hb' : b ≤ 16) (n : Nat) :
    Plain (charBytes (Nat.toDigits b n)) := by
  intro c hc
  obtain ⟨ch, hch, rfl⟩ := List.mem_map.mp hc
  obtain ⟨d, hd, rfl⟩ := mem_toDigits hb hch
  exact plain_digitChar d (by omega)

theorem plain_decimal (n : Nat) : Plain (decimal n) :=
  plain_charBytes_toDigits (by decide) (by decide) n

theorem plain_hex (n : Nat) : Plain (hex n) :=
  plain_charBytes_toDigits (by decide) (by decide) n

theorem plain_signed : ∀ i : Int, Plain (signed i)
  | .ofNat n => plain_decimal n
  | .negSucc n => by
      intro c hc
      rcases List.mem_cons.mp hc with rfl | hc
      · decide
      · exact plain_decimal (n + 1) c hc

theorem plain_pointer (v : UInt64) : Plain (pointer v) := by
  unfold pointer
  split
  · unfold Plain
    decide +kernel
  · exact Plain.append (by unfold Plain; decide +kernel) (plain_hex _)

/-! ## Lengths -/

theorem length_decimal_le_iff {n k : Nat} (hk : 0 < k) : (decimal n).length ≤ k ↔ n < 10 ^ k := by
  rw [decimal, charBytes, List.length_map]
  exact Nat.length_toDigits_le_iff (by decide) hk

theorem length_decimal_le {n k : Nat} (h : n < 10 ^ k) (hk : 0 < k) : (decimal n).length ≤ k :=
  (length_decimal_le_iff hk).mpr h

theorem length_hex_le {n k : Nat} (h : n < 16 ^ k) (hk : 0 < k) : (hex n).length ≤ k := by
  rw [hex, charBytes, List.length_map]
  exact (Nat.length_toDigits_le_iff (by decide) hk).mpr h

theorem length_signed_le : ∀ {i : Int} {k : Nat}, i.natAbs < 10 ^ k → 0 < k →
    (signed i).length ≤ k + 1
  | .ofNat n, k, h, hk => by
      have := length_decimal_le (n := n) (by simpa using h) hk
      simp only [signed]
      omega
  | .negSucc n, k, h, hk => by
      have := length_decimal_le (n := n + 1) (by simpa using h) hk
      simp only [signed, List.length_cons]
      omega

theorem length_pointer_le (v : UInt64) : (pointer v).length ≤ 18 := by
  unfold pointer
  split
  · decide
  · have := length_hex_le (n := v.toNat) (k := 16) v.toNat_lt (by decide)
    have htwo : (ascii "0x").length = 2 := by decide
    simp only [List.length_append]
    omega

/-! ## Decimal numerals are read back -/

theorem decimalValue_charBytes (cs : List Char) (h : ∀ c ∈ cs, c.toNat < 256) (init : Nat) :
    (charBytes cs).foldl (fun v c => v * 10 + (c.toNat - 48)) init =
      Nat.ofDigitChars 10 cs init := by
  induction cs generalizing init with
  | nil => simp [charBytes]
  | cons c cs ih =>
      have hc : (UInt8.ofNat c.toNat).toNat = c.toNat := by
        simpa using Nat.mod_eq_of_lt (h c (by simp))
      rw [Nat.ofDigitChars_cons]
      simp only [charBytes, List.map_cons, List.foldl_cons, hc]
      rw [Nat.mul_comm init 10]
      exact ih (fun c hc => h c (List.mem_cons_of_mem _ hc)) _

theorem decimalValue_decimal (n : Nat) : decimalValue (decimal n) = n := by
  unfold decimalValue decimal
  rw [decimalValue_charBytes, Nat.ofDigitChars_ten_toDigits]
  intro c hc
  obtain ⟨d, hd, rfl⟩ := mem_toDigits (by decide) hc
  exact toNat_digitChar_lt d hd

theorem isDigit_of_mem_decimal {n : Nat} {c : UInt8} (hc : c ∈ decimal n) : isDigit c = true := by
  obtain ⟨ch, hch, rfl⟩ := List.mem_map.mp hc
  obtain ⟨d, hd, rfl⟩ := mem_toDigits (by decide) hch
  exact isDigit_digitChar d hd

theorem decimal_injective {m n : Nat} (h : decimal m = decimal n) : m = n := by
  have := congrArg decimalValue h
  rwa [decimalValue_decimal, decimalValue_decimal] at this

theorem decimal_ne_minus (m n : Nat) : decimal m ≠ 45 :: decimal n := by
  intro h
  have hmem : (45 : UInt8) ∈ decimal m := by rw [h]; simp
  exact absurd (isDigit_of_mem_decimal hmem) (by decide)

theorem signed_injective : ∀ {i j : Int}, signed i = signed j → i = j
  | .ofNat m, .ofNat n, h => congrArg Int.ofNat (decimal_injective h)
  | .ofNat m, .negSucc n, h => absurd h (decimal_ne_minus m (n + 1))
  | .negSucc m, .ofNat n, h => absurd h.symm (decimal_ne_minus n (m + 1))
  | .negSucc m, .negSucc n, h => by
      have := decimal_injective (List.tail_eq_of_cons_eq h)
      congr 1
      omega

end CText
