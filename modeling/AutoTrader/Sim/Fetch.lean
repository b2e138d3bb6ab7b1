import AutoTrader.Lib.Decimal
import AutoTrader.Sim.Bars

/-!
# Reading klines

`parseKlines` reads klines from texts and skips those that it cannot read; `decimalToMilli` is the step from a
decimal to an integer price, which the database loader takes too. The decimals are those of `DecimalOps`, whose
product panics when it is refused.
-/

namespace AutoTrader.Sim

open Lib

variable {D : Type}

/-- A kline as the exchange sends it. -/
structure KlineRaw where
  openTime : String
  opening : String
  high : String
  low : String
  close : String
  deriving DecidableEq, Repr

/-- Where the parsing can panic. -/
inductive Panic where
  | multiplicationOverflowed
  deriving DecidableEq, Repr

/-- Why a price is no whole number of milli units. -/
inductive MilliScaleRejection (D : Type) where
  | fractional (scaled : D)
  | overflow

/-! ## Prices -/

/-- `milli_to_decimal`. -/
def milliToDecimal (ops : DecimalOps D) (v : Int64) : D := ops.new v.toInt 3

/-- The product of two decimals, which panics when it overflows. -/
def multiply (ops : DecimalOps D) (a b : D) : Except Panic D :=
  match ops.mul a b with
  | some c => .ok c
  | none => .error .multiplicationOverflowed

/-- `decimal_to_milli`. -/
def decimalToMilli (ops : DecimalOps D) (d : D) : Except Panic (Except (MilliScaleRejection D) Int64) :=
  match multiply ops d (ops.fromInt 1000) with
  | .error panic => .error panic
  | .ok scaled =>
    if ops.isZero (ops.fract scaled) = false then .ok (.error (.fractional scaled))
    else
      match ops.toI64 scaled with
      | some m => .ok (.ok m)
      | none => .ok (.error .overflow)

/-! ## Texts -/

/-- The value of one or more decimal digits. -/
def digitsValue (digits : List Char) : Option Nat :=
  if digits = [] ∨ ¬digits.all (fun c => '0' ≤ c && c ≤ '9') then none
  else some (digits.foldl (fun n c => 10 * n + (c.toNat - '0'.toNat)) 0)

/-- The sign and the rest of a number's text. -/
def signAndDigits : List Char → Bool × List Char
  | '-' :: digits => (true, digits)
  | '+' :: digits => (false, digits)
  | digits => (false, digits)

/-- `parse` to an `i64`: a sign or none, and digits. -/
def parseI64 (s : String) : Option Int :=
  match digitsValue (signAndDigits s.toList).2 with
  | none => none
  | some n =>
    let v : Int := if (signAndDigits s.toList).1 then -n else n
    if -2 ^ 63 ≤ v ∧ v < 2 ^ 63 then some v else none

/-! ## Klines -/

/-- What is read, if it can be, unless the code panics. -/
abbrev Read (α : Type) := Except Panic (Option α)

/-- A reading goes on where the one before found a value. -/
def Read.andThen {α β : Type} (x : Read α) (f : α → Read β) : Read β :=
  match x with
  | .ok (some a) => f a
  | .ok none => .ok none
  | .error panic => .error panic

/-- The milli price of a text. -/
def decimalStrToMilli (ops : DecimalOps D) (s : String) : Read Int64 :=
  match ops.fromStr s with
  | none => .ok none
  | some d =>
    match decimalToMilli ops d with
    | .error panic => .error panic
    | .ok (.ok m) => .ok (some m)
    | .ok (.error _) => .ok none

/-- The open time of a text, in seconds. -/
def parseOpenTime (s : String) : Option Int :=
  match parseI64 s with
  | none => none
  | some openTimeMs => if openTimeMs < 0 ∨ openTimeMs % 1000 ≠ 0 then none else some (openTimeMs / 1000)

/-- The kline of an entry, where all its texts can be read. -/
def parseKline (ops : DecimalOps D) (raw : KlineRaw) : Read Kline :=
  match parseOpenTime raw.openTime with
  | none => .ok none
  | some openTime =>
    Read.andThen (decimalStrToMilli ops raw.opening) fun opening =>
    Read.andThen (decimalStrToMilli ops raw.high) fun high =>
    Read.andThen (decimalStrToMilli ops raw.low) fun low =>
    Read.andThen (decimalStrToMilli ops raw.close) fun close =>
    .ok (some ⟨openTime, opening, high, low, close⟩)

/-- The klines of a list: entries that cannot be read are skipped. -/
def parseKlines (ops : DecimalOps D) : List KlineRaw → Except Panic (List Kline)
  | [] => .ok []
  | raw :: rest =>
    match parseKline ops raw with
    | .error panic => .error panic
    | .ok (some kline) =>
      match parseKlines ops rest with
      | .error panic => .error panic
      | .ok klines => .ok (kline :: klines)
    | .ok none => parseKlines ops rest

end AutoTrader.Sim
