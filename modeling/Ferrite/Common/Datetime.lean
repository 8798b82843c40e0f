import Ferrite.Common.Value

/-!
# Date functions

`eval_datetime` of `ferrite-common/src/datetime.rs`, over the calendar it computes
with. Reading, shifting and printing instants is taken as given.
-/

namespace Ferrite

/-- The clock, and instants as text. -/
structure Calendar where
  now : Int64
  parseDatetimeText : String → Option Int64
  applyModifier : Int64 → String → Option Int64
  formatDatetime : Int64 → String
  formatDate : Int64 → String

/-- A calendar that reads no text. -/
def Calendar.blank : Calendar where
  now := 0
  parseDatetimeText _ := none
  applyModifier _ _ := none
  formatDatetime _ := ""
  formatDate _ := ""

def eqIgnoreAsciiCase (left right : String) : Bool :=
  left.toList.map Char.toLower == right.toList.map Char.toLower

/-- A value where a text is needed; the callers have dealt with `NULL`. -/
def textExpected (value : Value) : FerriteError := .typeMismatch .text (value.dataType.getD .text)

namespace Calendar

variable (calendar : Calendar)

/-- The instant a first argument names, `none` for `NULL`. -/
def instant : Value → Except FerriteError (Option Int64)
  | .null => .ok none
  | .timestamp micros => .ok (some micros)
  | .text text =>
    if eqIgnoreAsciiCase text "now" then .ok (some calendar.now)
    else
      match calendar.parseDatetimeText text with
      | some micros => .ok (some micros)
      | none => .error (.exec s!"\x60{text}\x60 is not a valid date/time")
  | other => .error (textExpected other)

/-- Apply the modifiers in order; a `NULL` one makes the whole result `NULL`. -/
def applyModifiers : Int64 → List Value → Except FerriteError (Option Int64)
  | micros, [] => .ok (some micros)
  | _, .null :: _ => .ok none
  | micros, .text modifier :: rest =>
    match calendar.applyModifier micros modifier with
    | some shifted => applyModifiers shifted rest
    | none => .error (.exec s!"unsupported date modifier \x60{modifier}\x60")
  | _, other :: _ => .error (textExpected other)

def render (withTime : Bool) (micros : Int64) : Value :=
  .text (if withTime then calendar.formatDatetime micros else calendar.formatDate micros)

/-- `datetime(when, modifier…)`, or `date(when, modifier…)` without the time. -/
def evalDatetime (args : List Value) (withTime : Bool) : Except FerriteError Value :=
  match args with
  | [] => .ok .null
  | first :: modifiers => do
    match ← calendar.instant first with
    | none => pure .null
    | some micros =>
      let shifted ← calendar.applyModifiers micros modifiers
      pure ((shifted.map (calendar.render withTime)).getD .null)

end Calendar

end Ferrite
