import Mathlib.Data.List.TakeWhile
import RichardCore.Packages

/-!
# Command line of the compliance runner

The runner reads its arguments from left to right. A flag with a value takes
the next argument whatever it looks like, a flag at the end without one and
unknown arguments are passed over, and a later value replaces an earlier one.
The cycle limit is read as the C++ library does: blanks, a sign, the longest
run of decimal digits. The suite script writes its limit, any integer, in
decimal; the runner gets it back modulo the word size, or refuses it.
-/

namespace RichardCore.CommandLine

open Packages

/-- Exceptions of `std::stoull`, which nothing catches. -/
inductive NumberError where
  /-- No digits. -/
  | invalidArgument
  /-- The magnitude is no 64-bit number. -/
  | outOfRange
  deriving DecidableEq, Repr

/-- Blanks of the C locale. -/
def isSpace (c : Char) : Bool := c= ' ' || (decide (9≤c.toNat) && decide (c.toNat≤13))

/-- Whether a number has a minus sign, and what follows its sign. -/
def splitSign : List Char → Bool × List Char
  | '-'::rest => (true,rest)
  | '+'::rest => (false,rest)
  | text => (false,text)

/-- The decimal number at the start of a text; a minus sign negates it modulo
the word size. -/
def stoull (text : List Char) : Except NumberError Word :=
  let signed := splitSign (text.dropWhile isSpace)
  let digits := signed.2.takeWhile Char.isDigit
  if digits=[] then .error .invalidArgument
  else
    let magnitude := Nat.ofDigitChars 10 digits 0
    if 2^64≤ magnitude then .error .outOfRange
    else if signed.1 then .ok (-BitVec.ofNat 64 magnitude)
    else .ok (BitVec.ofNat 64 magnitude)

/-- Options of the runner. -/
structure Options where
  /-- Cycle limit. -/
  maxCycles : Word := 2000
  /-- File to run. -/
  elfPath : String := ""
  /-- Where the signature goes. -/
  signaturePath : String := ""
  /-- Only the usage is asked for. -/
  showHelp : Bool := false
  deriving DecidableEq, Repr

/-- The loop over the arguments behind the program name. -/
def parseArgs : List String → Options → Except NumberError Options
  | [],opts => .ok opts
  | [arg],opts =>
    if arg="--help" ∨ arg="-h" then .ok {opts with showHelp := true} else .ok opts
  | arg::value::rest,opts =>
    if arg="--help" ∨ arg="-h" then parseArgs (value::rest) {opts with showHelp := true}
    else if arg="--max-cycles" then
      match stoull value.toList with
      | .error e => .error e
      | .ok n => parseArgs rest {opts with maxCycles := n}
    else if arg="--elf" then parseArgs rest {opts with elfPath := value}
    else if arg="--signature" then parseArgs rest {opts with signaturePath := value}
    else parseArgs (value::rest) opts

/-- Arguments the suite script runs a file with; Python prints the limit in
decimal. -/
def runnerArgs (elf : String) (maxCycles : ℤ) (signature : String) : List String :=
  ["--elf",elf,"--max-cycles",toString maxCycles,"--signature",signature]

section Numbers

/-- Decimal digits are digits. -/
theorem toDigits_isDigit (n : ℕ) : ∀ c∈Nat.toDigits 10 n,c.isDigit=true := fun _ hc =>
  Nat.isDigit_of_mem_toDigits (by decide) (by decide) hc

/-- Digits are neither blanks nor signs. -/
theorem isDigit_plain {c : Char} (h : c.isDigit=true) : isSpace c=false ∧ c≠ '-' ∧ c≠ '+' := by
  have hrange : 48≤c.toNat ∧ c.toNat≤57 := by
    rw [Char.isDigit,Bool.and_eq_true,decide_eq_true_eq,decide_eq_true_eq] at h
    exact h
  refine ⟨?_,?_,?_⟩
  · unfold isSpace
    have hblank : c≠ ' ' := by
      rintro rfl
      exact absurd hrange.1 (by decide)
    rw [decide_eq_false hblank,Bool.false_or,Bool.and_eq_false_iff]
    exact .inr (decide_eq_false (by omega))
  · rintro rfl
    exact absurd hrange.1 (by decide)
  · rintro rfl
    exact absurd hrange.1 (by decide)

/-- A text that begins with a digit has no blanks and no sign before it. -/
theorem splitSign_digits {c : Char} (rest : List Char) (h : c.isDigit=true) :
    splitSign ((c::rest).dropWhile isSpace)=(false,c::rest) := by
  obtain ⟨hspace,hminus,hplus⟩ := isDigit_plain h
  rw [List.dropWhile_cons_of_neg (by rw [hspace]; decide)]
  unfold splitSign
  split
  · rename_i heq
    exact absurd (List.cons.inj heq).1 hminus
  · rename_i heq
    exact absurd (List.cons.inj heq).1 hplus
  · rfl

/-- The digits of a number are read back. -/
theorem takeWhile_toDigits (n : ℕ) : (Nat.toDigits 10 n).takeWhile Char.isDigit=Nat.toDigits 10 n :=
  List.takeWhile_eq_self_iff.mpr (toDigits_isDigit n)

/-- A printed natural number is read back if it is a 64-bit number. -/
theorem stoull_nat (n : ℕ) :
    stoull (Nat.toDigits 10 n)=
      if n < 2^64 then .ok (BitVec.ofNat 64 n) else .error .outOfRange := by
  have hne : Nat.toDigits 10 n≠[] := Nat.toDigits_ne_nil
  obtain ⟨c,rest,hdigits⟩ := List.exists_cons_of_ne_nil hne
  have hdigit : c.isDigit=true := toDigits_isDigit n c (by rw [hdigits]; exact List.mem_cons_self)
  unfold stoull
  rw [hdigits,splitSign_digits rest hdigit,←hdigits]
  dsimp only
  rw [takeWhile_toDigits,if_neg hne,Nat.ofDigitChars_toDigits (by decide) (by decide)]
  by_cases hlt : n < 2^64
  · rw [if_neg (Nat.not_le_of_lt hlt),if_pos hlt]
    rfl
  · rw [if_pos (Nat.le_of_not_lt hlt),if_neg hlt]

/-- A printed negative number is read back modulo the word size. -/
theorem stoull_neg (n : ℕ) :
    stoull ('-'::Nat.toDigits 10 n)=
      if n < 2^64 then .ok (-BitVec.ofNat 64 n) else .error .outOfRange := by
  have hne : Nat.toDigits 10 n≠[] := Nat.toDigits_ne_nil
  have hsign : splitSign (('-'::Nat.toDigits 10 n).dropWhile isSpace)=(true,Nat.toDigits 10 n) := by
    rw [List.dropWhile_cons_of_neg (by decide)]
    rfl
  unfold stoull
  rw [hsign]
  dsimp only
  rw [takeWhile_toDigits,if_neg hne,Nat.ofDigitChars_toDigits (by decide) (by decide)]
  by_cases hlt : n < 2^64
  · rw [if_neg (Nat.not_le_of_lt hlt),if_pos hlt]
    rfl
  · rw [if_pos (Nat.le_of_not_lt hlt),if_neg hlt]

/-- A printed integer is read back modulo the word size, or refused. -/
theorem stoull_int (z : ℤ) :
    stoull (toString z).toList=
      if z.natAbs < 2^64 then .ok (BitVec.ofInt 64 z) else .error .outOfRange := by
  cases z with
  | ofNat n =>
    have htext : (toString (Int.ofNat n)).toList=Nat.toDigits 10 n := Nat.toList_repr
    rw [htext,stoull_nat]
    rfl
  | negSucc n =>
    have htext : (toString (Int.negSucc n)).toList= '-'::Nat.toDigits 10 (n+1) := by
      change ("-"++Nat.repr (n+1)).toList=_
      rw [String.toList_append,Nat.toList_repr]
      rfl
    have hvalue : -BitVec.ofNat 64 (n+1)=BitVec.ofInt 64 (Int.negSucc n) := by
      rw [Int.negSucc_eq,BitVec.ofInt_neg]
      rfl
    rw [htext,stoull_neg,hvalue]
    rfl

end Numbers

/-- The runner takes over what the script passes: for all paths, even ones
that look like flags, and every integer limit, the options are the two paths
and the limit modulo the word size, if its magnitude is a 64-bit number; else
the runner ends with an exception. -/
theorem parseArgs_runnerArgs (elf signature : String) (maxCycles : ℤ) :
    parseArgs (runnerArgs elf maxCycles signature) {}=
      if maxCycles.natAbs < 2^64 then .ok ⟨BitVec.ofInt 64 maxCycles,elf,signature,false⟩
      else .error .outOfRange := by
  have hlimit := stoull_int maxCycles
  unfold runnerArgs
  by_cases hsmall : maxCycles.natAbs < 2^64
  · rw [if_pos hsmall] at hlimit ⊢
    simp [parseArgs,-Int.toString_eq_repr,hlimit]
  · rw [if_neg hsmall] at hlimit ⊢
    simp [parseArgs,-Int.toString_eq_repr,hlimit]

end RichardCore.CommandLine
