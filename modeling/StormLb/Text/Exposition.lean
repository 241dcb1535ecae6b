import Mathlib.Data.List.Basic
import Std.Data.String.ToInt

/-!
# The text exposition format

A reader of the metrics text format 0.0.4: lines of samples, each with a name, its
labels and a value, under the HELP and TYPE of their family.
-/

namespace StormLb.Exposition

/-! ## Tokens -/

def isBlank (c : Char) : Bool :=
  c = ' ' ∨ c = '\t'

def skipBlanks (text : List Char) : List Char :=
  text.dropWhile isBlank

def isLabelChar (c : Char) : Bool :=
  c.isAlphanum || c = '_'

def isLabelName (name : List Char) : Bool :=
  name.all isLabelChar && (name.head?.map fun c => !c.isDigit).getD false

def isNameChar (c : Char) : Bool :=
  isLabelChar c || c = ':'

def isMetricName (name : List Char) : Bool :=
  name.all isNameChar && (name.head?.map fun c => !c.isDigit).getD false

/-- A value: a whole number, or another number by its text. -/
inductive Number where
  | whole (n : Int)
  | other (token : List Char)
  deriving DecidableEq, Repr

def isDigits (text : List Char) : Bool :=
  text ≠ [] ∧ text.all Char.isDigit

def dropSign : List Char → List Char
  | '-' :: rest => rest
  | '+' :: rest => rest
  | text => text

/-- Nothing, or an exponent. -/
def isExponent : List Char → Bool
  | [] => true
  | c :: rest => (c = 'e' ∨ c = 'E') ∧ isDigits (dropSign rest)

/-- Digits with a point among them or not, and an exponent or not. -/
def isDecimal (text : List Char) : Bool :=
  let whole := text.takeWhile Char.isDigit
  match text.dropWhile Char.isDigit with
  | '.' :: rest =>
      let fraction := rest.takeWhile Char.isDigit
      (whole ≠ [] ∨ fraction ≠ []) ∧ isExponent (rest.dropWhile Char.isDigit)
  | rest => whole ≠ [] ∧ isExponent rest

def isFloatChar (c : Char) : Bool :=
  c.isDigit || "+-.eEINafn".toList.contains c

/-- A number as it may stand for a value. -/
def isFloat (token : List Char) : Bool :=
  let body := dropSign token
  token.all isFloatChar ∧
    (isDecimal body ∨ body = "Inf".toList ∨ body = "inf".toList ∨ body = "NaN".toList)

def readNumber (token : List Char) : Option Number :=
  if isFloat token then
    match (String.ofList token).toInt? with
    | some n => some (.whole n)
    | none => some (.other token)
  else none

/-! ## Labels -/

/-- The character an escape stands for. -/
def unescape (c : Char) : Option Char :=
  if c = '\\' then some '\\' else if c = '"' then some '"' else if c = 'n' then some '\n' else none

/-- A label value up to its closing quote, and what follows. -/
def readQuoted : List Char → Option (List Char × List Char)
  | [] => none
  | c :: rest =>
      if c = '"' then some ([], rest)
      else if c = '\\' then
        match rest with
        | [] => none
        | d :: rest =>
            match unescape d with
            | none => none
            | some d => (readQuoted rest).map fun (value, rest) => (d :: value, rest)
      else if c = '\n' then none
      else (readQuoted rest).map fun (value, rest) => (c :: value, rest)

/-- `name="value"`, and what follows. -/
def readPair (text : List Char) : Option ((List Char × List Char) × List Char) :=
  let name := text.takeWhile isLabelChar
  if isLabelName name then
    match skipBlanks (text.dropWhile isLabelChar) with
    | '=' :: rest =>
        match skipBlanks rest with
        | '"' :: rest => (readQuoted rest).map fun (value, rest) => ((name, value), rest)
        | _ => none
    | _ => none
  else none

/-- Labels up to the closing brace, and what follows. -/
def readPairs : Nat → List Char → Option (List (List Char × List Char) × List Char)
  | 0, _ => none
  | fuel + 1, text =>
      match skipBlanks text with
      | '}' :: rest => some ([], rest)
      | text => do
          let (pair, rest) ← readPair text
          match skipBlanks rest with
          | ',' :: rest => do
              let (pairs, rest) ← readPairs fuel rest
              return (pair :: pairs, rest)
          | '}' :: rest => return ([pair], rest)
          | _ => none

/-- The labels of a sample, if it has any, and what follows. -/
def readLabels (text : List Char) : Option (List (List Char × List Char) × List Char) :=
  match text with
  | '{' :: rest => readPairs rest.length rest
  | text => some ([], text)

/-! ## Lines -/

structure Sample where
  name : List Char
  labels : List (List Char × List Char)
  value : Number
  deriving DecidableEq, Repr

/-- A timestamp, or nothing. -/
def isTimestamp (text : List Char) : Bool :=
  let token := text.takeWhile (!isBlank ·)
  skipBlanks (text.dropWhile (!isBlank ·)) = [] ∧ (token = [] ∨ isDigits (dropSign token))

def readSample (line : List Char) : Option Sample := do
  let name := line.takeWhile isNameChar
  if isMetricName name then
    let (labels, rest) ← readLabels (skipBlanks (line.dropWhile isNameChar))
    let rest := skipBlanks rest
    let value ← readNumber (rest.takeWhile (!isBlank ·))
    if isTimestamp (skipBlanks (rest.dropWhile (!isBlank ·))) ∧ (labels.map Prod.fst).Nodup then
      return { name, labels, value }
    else none
  else none

inductive Kind where
  | counter
  | gauge
  | histogram
  | summary
  | untyped
  deriving DecidableEq, Repr

def Kind.text : Kind → String
  | .counter => "counter"
  | .gauge => "gauge"
  | .histogram => "histogram"
  | .summary => "summary"
  | .untyped => "untyped"

def readKind (text : List Char) : Option Kind :=
  [Kind.counter, .gauge, .histogram, .summary, .untyped].find? fun kind => kind.text.toList = text

/-- The text of a HELP line. -/
def readHelp : List Char → Option (List Char)
  | [] => some []
  | c :: rest =>
      if c = '\\' then
        match rest with
        | [] => none
        | d :: rest =>
            if d = '\\' then (readHelp rest).map ('\\' :: ·)
            else if d = 'n' then (readHelp rest).map ('\n' :: ·)
            else none
      else (readHelp rest).map (c :: ·)

inductive Line where
  | comment
  | help (name text : List Char)
  | type (name : List Char) (kind : Kind)
  | sample (sample : Sample)
  deriving DecidableEq, Repr

/-- What follows `#`. -/
def readComment (text : List Char) : Option Line :=
  let text := skipBlanks text
  let keyword := text.takeWhile (!isBlank ·)
  let text := skipBlanks (text.dropWhile (!isBlank ·))
  let name := text.takeWhile (!isBlank ·)
  let text := skipBlanks (text.dropWhile (!isBlank ·))
  if keyword = "HELP".toList then
    if isMetricName name then (readHelp text).map (.help name) else none
  else if keyword = "TYPE".toList then
    if isMetricName name then (readKind (text.takeWhile (!isBlank ·))).map (.type name) else none
  else some .comment

def readLine (line : List Char) : Option Line :=
  match skipBlanks line with
  | [] => some .comment
  | '#' :: rest => readComment rest
  | text => (readSample text).map .sample

/-- The lines of a text, each ended by a newline. -/
def textLines (text : List Char) : Option (List (List Char)) :=
  let pieces := text.splitOn '\n'
  if pieces.getLast? = some [] then some pieces.dropLast else none

/-! ## Families -/

/-- The samples of one metric, under its HELP and TYPE. -/
structure Family where
  name : List Char
  help : Option (List Char)
  kind : Option Kind
  samples : List Sample
  deriving DecidableEq, Repr

namespace Family

/-- Whether a sample of this name is one of the family's. -/
def owns (family : Family) (name : List Char) : Bool :=
  match family.kind with
  | some .histogram =>
      name = family.name ++ "_bucket".toList ∨ name = family.name ++ "_sum".toList ∨
        name = family.name ++ "_count".toList
  | some .summary =>
      name = family.name ∨ name = family.name ++ "_sum".toList ∨
        name = family.name ++ "_count".toList
  | _ => name = family.name

/-- A family that has a name of its own. -/
def start (name : List Char) (families : List Family) : Option (List Family) :=
  if name ∈ families.map Family.name then none
  else some ({ name, help := none, kind := none, samples := [] } :: families)

/-- The families after one more line; the one that goes on is the first. -/
def addLine (families : List Family) (line : Line) : Option (List Family) :=
  match line, families with
  | .comment, families => some families
  | .help name text, family :: rest =>
      if family.name = name ∧ family.help = none ∧ family.samples = [] then
        some ({ family with help := some text } :: rest)
      else (start name (family :: rest)).map (·.modifyHead ({ · with help := some text }))
  | .help name text, [] => (start name []).map (·.modifyHead ({ · with help := some text }))
  | .type name kind, family :: rest =>
      if family.name = name ∧ family.kind = none ∧ family.samples = [] then
        some ({ family with kind := some kind } :: rest)
      else (start name (family :: rest)).map (·.modifyHead ({ · with kind := some kind }))
  | .type name kind, [] => (start name []).map (·.modifyHead ({ · with kind := some kind }))
  | .sample sample, family :: rest =>
      if family.owns sample.name then
        some ({ family with samples := family.samples ++ [sample] } :: rest)
      else
        (start sample.name (family :: rest)).map (·.modifyHead ({ · with samples := [sample] }))
  | .sample sample, [] =>
      (start sample.name []).map (·.modifyHead ({ · with samples := [sample] }))

end Family

/-- The families of an exposition. -/
def parse (text : List Char) : Option (List Family) := do
  let lines ← textLines text
  let lines ← lines.mapM readLine
  let families ← lines.foldlM Family.addLine []
  return families.reverse

end StormLb.Exposition
