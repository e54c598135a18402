import InlineCompletion.Data.Basic
import InlineCompletion.Data.Json
import InlineCompletion.Failure

/-!
Log records and the two forms in which they are written, JSON and plain text.
-/

namespace InlineCompletion.Log

/-!
What log records say about the request they belong to.
-/

structure Context where
  generation : Option Int := none
  language : Option Text := none
  fileName : Option Text := none
  deriving DecidableEq, Repr

/-- The parts that are known, by name. -/
def Context.fields (context : Context) : List (Text × Data) :=
  let entry (name : Text) (value : Option Data) := (value.map fun v => (name, v)).toList
  entry "generation" (context.generation.map .int) ++
    entry "language_id" (context.language.map .text) ++
    entry "file_name" (context.fileName.map .text)

/-- The context of a completion request. -/
def Context.ofRequest (generation : Int) (language fileName : Text) : Context :=
  ⟨some generation, some language, some fileName⟩

/-- Levels that have a name, by their number. -/
def levelNames : List (Int × Text) :=
  [(50, "CRITICAL"), (40, "ERROR"), (30, "WARNING"), (20, "INFO"), (10, "DEBUG"), (0, "NOTSET")]

def levelName (level : Int) : Text :=
  (levelNames.lookup level).getD ("Level " ++ Text.ofInt level)

structure Entry where
  level : Int
  logger : Text
  message : Text
  context : Context := {}
  data : Data := .null
  failure : Option Failure := none

inductive Format where
  | json
  | text
  deriving DecidableEq, Repr

/-- Everything but the word `json` asks for plain text. -/
def Format.ofName (name : Text) : Format :=
  if name = ("json" : Text) then .json else .text

def Format.formatterName : Format → Text
  | json => "JsonFormatter"
  | text => "TextFormatter"

namespace Entry

def fields (entry : Entry) (time : Text) : List (Text × Data) :=
  let head : List (Text × Data) :=
    [("timestamp", .text time), ("level", .text (levelName entry.level)),
      ("logger", .text entry.logger), ("message", .text entry.message)]
  let context : List (Text × Data) :=
    if entry.context.fields.isEmpty then [] else [("context", .record entry.context.fields)]
  let data : List (Text × Data) := if entry.data.isTruthy then [("data", entry.data)] else []
  head ++ context ++ data ++
    (entry.failure.map fun f => (("exception" : Text), Data.text f.report)).toList

/-- The level is padded to eight characters; an empty file name is not shown. -/
def plain (entry : Entry) (time : Text) : Text :=
  let level : Text := '[' :: Text.padRight 8 (levelName entry.level) ++ "]"
  let request : List Text :=
    (entry.context.generation.map fun n => "[#" ++ Text.ofInt n ++ "]").toList
  let file : List Text :=
    match entry.context.fileName with
    | some (c :: rest) => ['(' :: c :: rest ++ ")"]
    | _ => []
  Text.join " " ([time, level, entry.logger] ++ request ++ file ++ ["- " ++ entry.message])

def write (entry : Entry) (format : Format) (time : Text) : Text :=
  match format with
  | .json => Json.write (.record (entry.fields time))
  | .text => entry.plain time

end Entry

/-!
The time of log records, made from the microseconds since the start of 1970.
-/

/-- A day of the calendar that has a leap year every four years but not in three of four
centuries. -/
structure Date where
  year : Nat
  month : Nat
  day : Nat
  deriving DecidableEq, Repr

namespace Date

/-- The date so many days after the first of March of the year zero. Years that begin in March have
their leap day at the end, so months are found without asking for leap years. -/
def ofMarchDays (days : Nat) : Date :=
  let era := days / 146097
  let dayOfEra := days % 146097
  let yearOfEra := (dayOfEra - dayOfEra / 1460 + dayOfEra / 36524 - dayOfEra / 146096) / 365
  let dayOfYear := dayOfEra - (365 * yearOfEra + yearOfEra / 4 - yearOfEra / 100)
  let month := (5 * dayOfYear + 2) / 153
  { year := era * 400 + yearOfEra + (if 10 ≤ month then 1 else 0)
    month := if month < 10 then month + 3 else month - 9
    day := dayOfYear - (153 * month + 2) / 5 + 1 }

/-- The date so many days after the start of 1970. -/
def ofDays (days : Nat) : Date :=
  ofMarchDays (days + 719468)

end Date

def padded (width n : Nat) : Text :=
  let digits := Text.ofNat n
  List.replicate (width - digits.length) '0' ++ digits

def dateText (date : Date) : Text :=
  padded 4 date.year ++ '-' :: padded 2 date.month ++ '-' :: padded 2 date.day

def clockText (seconds : Nat) : Text :=
  padded 2 (seconds / 3600) ++ ':' :: padded 2 (seconds / 60 % 60) ++ ':' ::
    padded 2 (seconds % 60)

/-- JSON records have the time to the microsecond, with the zone; plain ones to the second. -/
def timeText (microseconds : Nat) (format : Format) : Text :=
  let seconds := microseconds / 1000000
  let fraction := microseconds % 1000000
  let date := dateText (Date.ofDays (seconds / 86400))
  let clock := clockText (seconds % 86400)
  match format with
  | .text => date ++ ' ' :: clock
  | .json =>
    date ++ 'T' :: clock ++ (if fraction = 0 then [] else '.' :: padded 6 fraction) ++ "+00:00"

end InlineCompletion.Log
