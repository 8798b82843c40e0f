import Ferrite.Plan.Lower

/-!
# Expression evaluation

`ferrite-exec/src/eval.rs` and `scalar.rs`: bound expressions over a row, with SQL's
three-valued logic. What Rust's standard library does with letters, white space and
floats, the clock and the random source are taken as given.
-/

namespace Ferrite

namespace Float8

/-- A double as a signed magnitude; both zeros are zero. -/
def signed (bits : UInt64) : Int :=
  if bits &&& 0x8000000000000000 = 0 then (magnitude bits).toNat else -(magnitude bits).toNat

def partialCmp (left right : UInt64) : Option Ordering :=
  if isNaN left || isNaN right then none else some (compare (signed left) (signed right))

/-- The integer part of a double's magnitude. -/
def wholePart (bits : UInt64) : Nat :=
  let exponent := (magnitude bits).toNat / 2 ^ 52
  let mantissa := if exponent = 0 then (magnitude bits).toNat else (magnitude bits).toNat % 2 ^ 52 + 2 ^ 52
  if exponent ≤ 1075 then mantissa / 2 ^ (1075 - exponent) else mantissa * 2 ^ (exponent - 1075)

/-- `trunc() as i64`: towards zero, saturating, and zero for a NaN. -/
def toInt64 (bits : UInt64) : Int64 :=
  if isNaN bits then 0
  else if bits &&& 0x8000000000000000 = 0 then .ofInt (min (wholePart bits) (2 ^ 63 - 1))
  else .ofInt (max (-(wholePart bits : Int)) (-2 ^ 63))

end Float8

namespace Eval

open Sql Plan Logical

/-- What evaluation takes from the standard library and from the outside. -/
structure Runtime extends TextFormats where
  calendar : Calendar
  lowercase : String → String
  uppercase : String → String
  trim : String → String
  displayFloat : UInt64 → String
  addFloat : UInt64 → UInt64 → UInt64
  subFloat : UInt64 → UInt64 → UInt64
  mulFloat : UInt64 → UInt64 → UInt64
  divFloat : UInt64 → UInt64 → UInt64
  remFloat : UInt64 → UInt64 → UInt64
  blob : Nat → String

/-- A runtime that leaves texts alone and does no float arithmetic. -/
def Runtime.plain : Runtime where
  toTextFormats := .decimal
  calendar := .blank
  lowercase text := text
  uppercase text := text
  trim text := text
  displayFloat := TextFormats.decimal.writeFloat
  addFloat left _ := left
  subFloat left _ := left
  mulFloat left _ := left
  divFloat left _ := left
  remFloat left _ := left
  blob _ := ""

/-! ## Values -/

/-- A value of another type than the expected one; `NULL` was dealt with before. -/
def mismatch (expected : DataType) (value : Value) : FerriteError :=
  .typeMismatch expected (value.dataType.getD expected)

/-- A truth value, `none` for `NULL`. -/
def asBool : Value → Except FerriteError (Option Bool)
  | .null => .ok none
  | .boolean value => .ok (some value)
  | other => .error (mismatch .boolean other)

def asFloat : Value → Option UInt64
  | .int4 value => some (Float8.ofInt value.toInt)
  | .int8 value => some (Float8.ofInt value.toInt)
  | .float8 bits => some bits
  | _ => none

def asInt : Value → Option Int
  | .int4 value => some value.toInt
  | .int8 value => some value.toInt
  | _ => none

/-- Numbers of different kinds are compared as floats, anything else not at all. -/
def compareFloats (left right : Value) : Except FerriteError Ordering :=
  match asFloat left, asFloat right with
  | some leftBits, some rightBits =>
    match Float8.partialCmp leftBits rightBits with
    | some ordering => .ok ordering
    | none => .error (.exec "cannot order NaN against a number")
  | _, _ => .error (.typeMismatch (left.dataType.getD .text) (right.dataType.getD .text))

/-- The order of two values that are not `NULL`. -/
def compareValues : Value → Value → Except FerriteError Ordering
  | .boolean left, .boolean right => .ok (compare left right)
  | .text left, .text right => .ok (compare left right)
  | .json left, .json right => .ok (compare left right)
  | .uuid left, .uuid right => .ok (compare left.toNat right.toNat)
  | .timestamp left, .timestamp right => .ok (compare left.toInt right.toInt)
  | .int4 left, .int4 right => .ok (compare left.toInt right.toInt)
  | .int8 left, .int8 right => .ok (compare left.toInt right.toInt)
  | .int4 left, .int8 right => .ok (compare left.toInt right.toInt)
  | .int8 left, .int4 right => .ok (compare left.toInt right.toInt)
  | left, right => compareFloats left right

/-- `none` means the comparison is `NULL`. -/
def compareNullable (left right : Value) : Except FerriteError (Option Ordering) :=
  if left.isNull || right.isNull then .ok none else some <$> compareValues left right

/-- Whether an ordering satisfies a comparison operator. -/
def orderingMatches (op : BinaryOp) (ordering : Ordering) : Bool :=
  match op with
  | .eq => ordering == .eq
  | .notEq => ordering != .eq
  | .lt => ordering == .lt
  | .ltEq => ordering != .gt
  | .gt => ordering == .gt
  | .gtEq => ordering != .lt
  | _ => false

def comparison (op : BinaryOp) (left right : Value) : Except FerriteError Value := do
  let ordering ← compareNullable left right
  pure (match ordering with
    | none => .null
    | some ordering => .boolean (orderingMatches op ordering))

/-! ## Arithmetic -/

/-- An integer that fits in 64 bits. -/
def checkedInt64 (value : Int) : Except FerriteError Int :=
  if -2 ^ 63 ≤ value ∧ value < 2 ^ 63 then .ok value else .error (.exec "integer out of range")

/-- Division refuses a zero divisor, and with the same words a quotient out of range. -/
def checkedQuotient (left right quotient : Int) : Except FerriteError Int :=
  if right = 0 ∨ (left = -2 ^ 63 ∧ right = -1) then .error (.exec "division by zero") else .ok quotient

def integerOp (op : BinaryOp) (left right : Int) : Except FerriteError Int :=
  match op with
  | .plus => checkedInt64 (left + right)
  | .minus => checkedInt64 (left - right)
  | .multiply => checkedInt64 (left * right)
  | .divide => checkedQuotient left right (left.tdiv right)
  | .modulo => checkedQuotient left right (left.tmod right)
  | other => .error (.exec s!"{other.debug} is not arithmetic")

def floatOp (runtime : Runtime) (op : BinaryOp) (left right : UInt64) : Except FerriteError UInt64 :=
  match op with
  | .plus => .ok (runtime.addFloat left right)
  | .minus => .ok (runtime.subFloat left right)
  | .multiply => .ok (runtime.mulFloat left right)
  | .divide =>
    if Float8.isZero right then .error (.exec "division by zero") else .ok (runtime.divFloat left right)
  | .modulo =>
    if Float8.isZero right then .error (.exec "division by zero") else .ok (runtime.remFloat left right)
  | other => .error (.exec s!"{other.debug} is not arithmetic")

/-- The operand an arithmetic type error is about. -/
def operandMismatch (expected : DataType) (left right : Value) : FerriteError :=
  match left.dataType with
  | some actual => if actual ≠ expected then .typeMismatch expected actual else mismatch expected right
  | none => mismatch expected right

def narrowed (value : Int) : Except FerriteError Value :=
  if -2 ^ 31 ≤ value ∧ value < 2 ^ 31 then .ok (.int4 (.ofInt value)) else .error (.exec "integer out of range")

def floatArithmetic (runtime : Runtime) (op : BinaryOp) (left right : Value) : Except FerriteError Value :=
  match asFloat left, asFloat right with
  | some leftBits, some rightBits => Value.float8 <$> floatOp runtime op leftBits rightBits
  | _, _ => .error (operandMismatch .float8 left right)

/-- Numbers: the result has the wider of the two types. -/
def numberArithmetic (runtime : Runtime) (op : BinaryOp) : Value → Value → Except FerriteError Value
  | .float8 left, right => floatArithmetic runtime op (.float8 left) right
  | left, .float8 right => floatArithmetic runtime op left (.float8 right)
  | .int4 left, .int4 right => do
    let value ← integerOp op left.toInt right.toInt
    narrowed value
  | left, right =>
    match asInt left, asInt right with
    | some leftInt, some rightInt => do
      let value ← integerOp op leftInt rightInt
      pure (.int8 (.ofInt value))
    | _, _ => .error (operandMismatch .float8 left right)

def concatenation : Value → Value → Except FerriteError Value
  | .text left, .text right => .ok (.text (left ++ right))
  | left, right => .error (operandMismatch .text left right)

/-- `+ - * / %` and `||`; `NULL` propagates. -/
def arithmetic (runtime : Runtime) (op : BinaryOp) (left right : Value) : Except FerriteError Value :=
  if left.isNull || right.isNull then .ok .null
  else if op = .concat then concatenation left right
  else numberArithmetic runtime op left right

/-! ## `LIKE` -/

/-- Where the match stands: the rest of the text and pattern, and where to resume
after the last `%`. -/
structure LikeState where
  text : List Char
  pattern : List Char
  resume : Option (List Char × List Char)

/-- One character of the pattern against one of the text, `none` for a mismatch. -/
def likeAdvance (char : Char) (text : List Char) (resume : Option (List Char × List Char)) :
    List Char → Option LikeState
  | '%' :: pattern => some ⟨char :: text, pattern, some (char :: text, pattern)⟩
  | '_' :: pattern => some ⟨text, pattern, resume⟩
  | '\\' :: escaped :: pattern => if escaped = char then some ⟨text, pattern, resume⟩ else none
  | '\\' :: [] => none
  | other :: pattern => if other = char then some ⟨text, pattern, resume⟩ else none
  | [] => none

/-- The loop, for as many rounds as it can take. -/
def likeLoop : Nat → LikeState → Bool
  | 0, _ => false
  | _ + 1, ⟨[], pattern, _⟩ => pattern.all (· = '%')
  | rounds + 1, ⟨char :: text, pattern, resume⟩ =>
    match likeAdvance char text resume pattern, resume with
    | some state, _ => likeLoop rounds state
    | none, some (_ :: later, afterWildcard) => likeLoop rounds ⟨later, afterWildcard, some (later, afterWildcard)⟩
    | none, _ => false

/-- SQL `LIKE`: `%` matches any run, `_` one character, a backslash escapes either. -/
def likeMatches (text pattern : String) : Bool :=
  likeLoop ((text.length + 1) * (text.length + pattern.length + 2)) ⟨text.toList, pattern.toList, none⟩

def likeText (runtime : Runtime) (caseInsensitive : Bool) (subject pattern : String) : Bool :=
  if caseInsensitive then likeMatches (runtime.lowercase subject) (runtime.lowercase pattern)
  else likeMatches subject pattern

/-- The operand that is not a text; both were found not to be `NULL`. -/
def likeMismatch (subject pattern : Value) : FerriteError :=
  match subject.dataType with
  | some actual => if actual ≠ .text then .typeMismatch .text actual else mismatch .text pattern
  | none => mismatch .text pattern

def like (runtime : Runtime) (negated caseInsensitive : Bool) : Value → Value → Except FerriteError Value
  | .null, _ => .ok .null
  | _, .null => .ok .null
  | .text subject, .text pattern => .ok (.boolean (likeText runtime caseInsensitive subject pattern != negated))
  | subject, pattern => .error (likeMismatch subject pattern)

/-! ## Functions -/

/-- An argument the arity check has promised; indexing past the end panics. -/
def argument (args : List Value) (position : Nat) : Except FerriteError Value :=
  match args[position]? with
  | some value => .ok value
  | none => .error (.exec "index out of bounds")

def mapText (map : String → String) : Value → Except FerriteError Value
  | .null => .ok .null
  | .text text => .ok (.text (map text))
  | .json text => .ok (.text (map text))
  | other => .error (mismatch .text other)

def integerArg : Value → Except FerriteError (Option Int)
  | .null => .ok none
  | .int4 value => .ok (some value.toInt)
  | .int8 value => .ok (some value.toInt)
  | other => .error (mismatch .int8 other)

/-- Where a substring begins: counted from one, or from the end when negative. -/
def substrBegin (length : Nat) (start : Int) : Nat :=
  min (if start = 0 then 0 else if 0 < start then (start - 1).toNat else length - start.natAbs) length

def substrEnd (length first : Nat) (count : Int) : Nat :=
  if count ≤ 0 then first else min (first + count.toNat) length

/-- The characters from one position up to another. -/
def slice (text : String) (first last : Nat) : Value := .text (.ofList ((text.toList.take last).drop first))

/-- `substr(s, start[, len])` on a text. -/
def substrText (text : String) (args : List Value) : Except FerriteError Value := do
  let second ← argument args 1
  match ← integerArg second with
  | none => pure .null
  | some start =>
    let first := substrBegin text.length start
    match args[2]? with
    | none => pure (slice text first text.length)
    | some third =>
      match ← integerArg third with
      | none => pure .null
      | some count => pure (slice text first (substrEnd text.length first count))

def substr (args : List Value) : Except FerriteError Value := do
  match ← argument args 0 with
  | .text text => substrText text args
  | .null => pure .null
  | other => .error (mismatch .text other)

/-- Two uppercase hexadecimal digits. -/
def hexByte (byte : UInt8) : List Char :=
  [Nat.digitChar (byte.toNat / 16), Nat.digitChar (byte.toNat % 16)].map Char.toUpper

def hexText (text : String) : String := .ofList (text.toUTF8.toList.flatMap hexByte)

def randomblob (runtime : Runtime) (value : Value) : Except FerriteError Value := do
  match ← integerArg value with
  | none => pure .null
  | some length => pure (.text (runtime.blob (min (max length 0) (2 ^ 20)).toNat))

/-- A collation is a no-op on a value that is not a text. -/
def nocase (runtime : Runtime) : Value → Value
  | .text text => .text (runtime.lowercase text)
  | other => other

/-- The first value that is not `NULL`. -/
def coalesce (args : List Value) : Value := (args.find? fun value => !value.isNull).getD .null

def call (runtime : Runtime) (func : ScalarFunc) (args : List Value) : Except FerriteError Value :=
  match func with
  | .coalesce => .ok (coalesce args)
  | .lower => do mapText runtime.lowercase (← argument args 0)
  | .upper => do mapText runtime.uppercase (← argument args 0)
  | .nocase => do
    let value ← argument args 0
    pure (nocase runtime value)
  | .substr => substr args
  | .hex => do mapText hexText (← argument args 0)
  | .randomblob => do randomblob runtime (← argument args 0)
  | .datetime => runtime.calendar.evalDatetime args true
  | .date => runtime.calendar.evalDatetime args false

/-! ## Casts -/

/-- Thirty-two hexadecimal digits. -/
def uuidText (value : BitVec 128) : String :=
  let digits := Nat.toDigits 16 value.toNat
  .ofList (List.replicate (32 - digits.length) '0' ++ digits)

/-- The text a value casts to. -/
def render (runtime : Runtime) : Value → String
  | .null => ""
  | .boolean value => if value then "true" else "false"
  | .int4 value => writeInteger value.toInt
  | .int8 value => writeInteger value.toInt
  | .float8 bits => runtime.displayFloat bits
  | .text text => text
  | .json text => text
  | .timestamp micros => runtime.calendar.formatDatetime micros
  | .uuid value => uuidText value

/-- A 64-bit number, as `from_str` reads it. -/
def readInt64 (text : String) : Option Int :=
  (Numeral.readInt text.toList).filter fun value => -2 ^ 63 ≤ value && value < 2 ^ 63

def toInteger (runtime : Runtime) : Value → Option Int
  | .boolean value => some (if value then 1 else 0)
  | .int4 value => some value.toInt
  | .int8 value => some value.toInt
  | .float8 bits => some (Float8.toInt64 bits).toInt
  | .text text => readInt64 (runtime.trim text)
  | _ => none

def truthText (text : String) : Option Bool :=
  if ["t", "true", "y", "yes", "on", "1"].contains text then some true
  else if ["f", "false", "n", "no", "off", "0"].contains text then some false
  else none

def lowerAscii (text : String) : String := .ofList (text.toList.map Char.toLower)

/-- What a cast that cannot be made is refused with. -/
def badCast (target : DataType) (what : String) : FerriteError :=
  .exec s!"cannot cast {what} to {debugType target}"

/-- How a text appears in a refused cast. -/
def quoted (text : String) : String := s!"\x60{text}\x60"

def castBoolean (runtime : Runtime) : Value → Except FerriteError Value
  | .boolean value => .ok (.boolean value)
  | .int4 value => .ok (.boolean (value != 0))
  | .int8 value => .ok (.boolean (value != 0))
  | .text text =>
    match truthText (lowerAscii (runtime.trim text)) with
    | some value => .ok (.boolean value)
    | none => .error (badCast .boolean (quoted text))
  | other => .error (badCast .boolean (render runtime other))

def castInteger (runtime : Runtime) (target : DataType) (value : Value) : Except FerriteError Int :=
  match toInteger runtime value with
  | some integer => .ok integer
  | none => .error (badCast target (render runtime value))

def castFloat (runtime : Runtime) : Value → Except FerriteError Value
  | .int4 value => .ok (.float8 (Float8.ofInt value.toInt))
  | .int8 value => .ok (.float8 (Float8.ofInt value.toInt))
  | .float8 bits => .ok (.float8 bits)
  | .text text =>
    match runtime.readFloat (runtime.trim text) with
    | some bits => .ok (.float8 bits)
    | none => .error (badCast .float8 (quoted text))
  | other => .error (badCast .float8 (render runtime other))

def castTimestamp (runtime : Runtime) : Value → Except FerriteError Value
  | .timestamp micros => .ok (.timestamp micros)
  | .text text =>
    match runtime.calendar.parseDatetimeText text with
    | some micros => .ok (.timestamp micros)
    | none => .error (badCast .timestamp (quoted text))
  | other => .error (badCast .timestamp (render runtime other))

def castJson (runtime : Runtime) : Value → Except FerriteError Value
  | .json text => .ok (.json text)
  | .text text => .ok (.json text)
  | other => .error (badCast .json (render runtime other))

/-- Hexadecimal digits with the hyphens taken out. -/
def castUuid (runtime : Runtime) : Value → Except FerriteError Value
  | .uuid value => .ok (.uuid value)
  | .text text =>
    match (Numeral.readNat 16 (text.toList.filter (· ≠ '-'))).filter (· < 2 ^ 128) with
    | some value => .ok (.uuid (.ofNat 128 value))
    | none => .error (badCast .uuid (quoted text))
  | other => .error (badCast .uuid (render runtime other))

/-- An explicit `CAST` of a value that is not `NULL`. -/
def castValue (runtime : Runtime) (value : Value) (target : DataType) : Except FerriteError Value :=
  match target with
  | .text => .ok (.text (render runtime value))
  | .boolean => castBoolean runtime value
  | .int4 => do
    let integer ← castInteger runtime .int4 value
    narrowed integer
  | .int8 => do
    let integer ← castInteger runtime .int8 value
    pure (.int8 (.ofInt integer))
  | .float8 => castFloat runtime value
  | .timestamp => castTimestamp runtime value
  | .json => castJson runtime value
  | .uuid => castUuid runtime value

def cast (runtime : Runtime) (value : Value) (target : DataType) : Except FerriteError Value :=
  if value.isNull then .ok .null else castValue runtime value target

/-! ## Expressions -/

/-- `AND` after its left operand; a false one settles it. -/
def conjunction (left : Option Bool) (right : Except FerriteError Value) : Except FerriteError Value :=
  match left with
  | some false => .ok (.boolean false)
  | left => do
    let rightValue ← right
    let rightTruth ← asBool rightValue
    pure (match left, rightTruth with
      | _, some false => .boolean false
      | some true, some true => .boolean true
      | _, _ => .null)

/-- `OR` after its left operand; a true one settles it. -/
def disjunction (left : Option Bool) (right : Except FerriteError Value) : Except FerriteError Value :=
  match left with
  | some true => .ok (.boolean true)
  | left => do
    let rightValue ← right
    let rightTruth ← asBool rightValue
    pure (match left, rightTruth with
      | _, some true => .boolean true
      | some false, some false => .boolean false
      | _, _ => .null)

/-- An operator over its left value; `AND` and `OR` may not need the right one. -/
def binary (runtime : Runtime) (op : BinaryOp) (left : Value) (right : Except FerriteError Value) :
    Except FerriteError Value :=
  match op with
  | .and => do
    let leftTruth ← asBool left
    conjunction leftTruth right
  | .or => do
    let leftTruth ← asBool left
    disjunction leftTruth right
  | op => do
    let rightValue ← right
    if op.isArithmetic then arithmetic runtime op left rightValue else comparison op left rightValue

def negation (value : Value) : Except FerriteError Value := do
  let truth ← asBool value
  pure (match truth with
    | none => .null
    | some value => .boolean !value)

/-- Whether a branch of a `CASE` is taken: it equals the operand, or is true. -/
def branchTaken (operand : Option Value) (when : Value) : Except FerriteError Bool :=
  match operand with
  | some operand => do
    let ordering ← compareNullable operand when
    pure (ordering == some .eq)
  | none => .ok (when == .boolean true)

section

variable {P : Type} (runtime : Runtime) (row : Row)

mutual

/-- Evaluate a bound expression. A subquery has been replaced before any row is read. -/
def eval : PhysExpr P → Except FerriteError Value
  | .column position =>
    match row.values[position]? with
    | some value => .ok value
    | none => .error (.exec s!"column {position} out of range")
  | .literal value => .ok value
  | .isNull inner => do
    let value ← eval inner
    pure (.boolean value.isNull)
  | .not inner => do
    let value ← eval inner
    negation value
  | .like expr pattern negated caseInsensitive => do
    let subject ← eval expr
    let patternValue ← eval pattern
    like runtime negated caseInsensitive subject patternValue
  | .binary left op right => do
    let value ← eval left
    binary runtime op value (eval right)
  | .inSubquery _ _ _ => .error (.exec "a subquery reached evaluation without having been run")
  | .cast expr dataType => do
    let value ← eval expr
    cast runtime value dataType
  | .function func args => do
    let values ← evalArgs args
    call runtime func values
  | .caseWhen operand branches elseResult => do
    let operandValue ← evalOption operand
    let taken ← evalBranches operandValue branches
    match taken with
    | some value => pure value
    | none => do
      let value ← evalOption elseResult
      pure (value.getD .null)

def evalOption : Option (PhysExpr P) → Except FerriteError (Option Value)
  | none => .ok none
  | some expr => do
    let value ← eval expr
    pure (some value)

/-- The result of the first branch taken; later branches are not reached. -/
def evalBranches (operand : Option Value) : List (PhysExpr P × PhysExpr P) → Except FerriteError (Option Value)
  | [] => .ok none
  | (when, result) :: rest => do
    let whenValue ← eval when
    let taken ← branchTaken operand whenValue
    if taken then do
      let value ← eval result
      pure (some value)
    else evalBranches operand rest

def evalArgs : List (PhysExpr P) → Except FerriteError (List Value)
  | [] => .ok []
  | arg :: rest => do
    let value ← eval arg
    let values ← evalArgs rest
    pure (value :: values)

end

/-- A `WHERE`-style predicate: only true keeps the row. -/
def evalPredicate (expr : PhysExpr P) : Except FerriteError Bool := do
  let value ← eval runtime row expr
  pure (value == .boolean true)

end

end Eval

end Ferrite
