import SpanTags.Number.Layout
import SpanTags.Text.Quoted

namespace SpanTags

namespace Yaml

inductive CalendarFault
  | year (n : Nat)
  | month
  | day
  | hour
  | minute
  | second
  | offset (minutes : Int)
deriving DecidableEq

namespace CalendarFault

def lengthText (minutes : Int) : Text :=
  let days := minutes.fdiv 1440
  let seconds := minutes.fmod 1440 * 60
  let tail : Text := if seconds = 0 then "" else ", seconds=" ++ Text.ofInt seconds
  "datetime.timedelta(days=" ++ Text.ofInt days ++ tail ++ ")"

def message : CalendarFault → Text
  | year n => "year " ++ Text.ofNat n ++ " is out of range"
  | month => "month must be in 1..12"
  | day => "day is out of range for month"
  | hour => "hour must be in 0..23"
  | minute => "minute must be in 0..59"
  | second => "second must be in 0..59"
  | offset minutes =>
    "offset must be a timedelta strictly between -timedelta(hours=24) and " ++
      "timedelta(hours=24), not " ++ lengthText minutes ++ "."

end CalendarFault

-- Why a document is not read. Everything against the syntax is one fault; the others
-- concern scalars that are well formed and yet stand for nothing.
inductive Fault
  | malformed
  | codePoint (number : Nat)
  | emptyNumber
  | integer (base : Nat) (text : Text)
  | digits (fault : TooManyDigits)
  | decimal (text : Text)
  | truthWord (text : Text)
  | noTimestamp
  | calendar (fault : CalendarFault)
deriving DecidableEq

namespace Fault

def kind : Fault → Text
  | malformed => "YAMLError"
  | codePoint n => if n < 2 ^ 31 then "ValueError" else "OverflowError"
  | emptyNumber => "IndexError"
  | integer _ _ => "ValueError"
  | digits _ => "ValueError"
  | decimal _ => "ValueError"
  | truthWord _ => "KeyError"
  | noTimestamp => "AttributeError"
  | calendar _ => "ValueError"

def message : Fault → Text
  | malformed => ""
  | codePoint n =>
    if n < 2 ^ 31 then "chr() arg not in range(0x110000)"
    else "Python int too large to convert to C int"
  | emptyNumber => "string index out of range"
  | integer base text =>
    "invalid literal for int() with base " ++ Text.ofNat base ++ ": " ++ text.quoted
  | digits fault => fault.message
  | decimal text => "could not convert string to float: " ++ text.quoted
  | truthWord text => text.quoted
  | noTimestamp => "'NoneType' object has no attribute 'groupdict'"
  | calendar fault => fault.message

end Fault

end Yaml

end SpanTags
