import DocDesk.Json.Inspect

/-!
# Whole numbers from values

The whole number that a value of any kind gives: a text is read, a double is cut, a truth value is
zero or one.  Main definition: `toWhole`.
-/

namespace DocDesk.Json

/-- Why a value gives no whole number. -/
inductive WholeFault where
  | text (fault : Whole.Fault)
  | infinite
  | notANumber
  | wrongKind (kind : String)
deriving DecidableEq, Repr

/-- The wording of a fault. -/
def WholeFault.message : WholeFault → String
  | .text f => f.message
  | .infinite => "cannot convert float infinity to integer"
  | .notANumber => "cannot convert float NaN to integer"
  | .wrongKind kind =>
    "int() argument must be a string, a bytes-like object or a real number, not '" ++ kind ++ "'"

/-- The whole number that a value gives. -/
def toWhole (v : Json) : Except WholeFault Int :=
  match v with
  | .int i => .ok i
  | .bool b => .ok (if b then 1 else 0)
  | .float x =>
    match x.truncate? with
    | some n => .ok n
    | none => .error (if x.isNaN then .notANumber else .infinite)
  | .str s =>
    match Whole.read s with
    | .ok n => .ok n
    | .error f => .error (.text f)
  | v => .error (.wrongKind v.kindName)

end DocDesk.Json
