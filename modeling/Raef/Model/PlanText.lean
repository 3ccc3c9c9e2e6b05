import Raef.Model.Services

/-!
# Plans as text

`create_plan_from_text` and its parser: a plan is one line after the other, under four section
keywords, with numbered or bulleted entries.  What `json.loads` makes of the text is a parameter:
the dictionary when the text is a JSON object, nothing when it is another value or no JSON, and what
it raises else, which is not caught: an integer with too many digits, a nesting that is too deep.
-/

namespace Raef

open Text Txn

/-! ## Lines -/

/-- A line boundary of `str.splitlines`. -/
def isLineBreak (c : Char) : Bool :=
  [0x0A, 0x0B, 0x0C, 0x0D, 0x1C, 0x1D, 0x1E, 0x85, 0x2028, 0x2029].contains c.toNat

/-- The line being read, and the lines that follow; `\r\n` is one boundary. -/
def splitLinesFrom (line : List Char) : List Char → List (List Char)
  | [] => if line = [] then [] else [line]
  | '\r' :: '\n' :: rest => line :: splitLinesFrom [] rest
  | c :: rest => if isLineBreak c then line :: splitLinesFrom [] rest else splitLinesFrom (line ++ [c]) rest

def splitLines (text : String) : List String := (splitLinesFrom [] text.toList).map String.ofList

/-- The lines that are not blank, without the white space around them. -/
def planLines (planSourceText : String) : List String :=
  ((splitLines planSourceText).filter fun line => ¬ blank line).map strip

/-! ## One line -/

inductive PlanSection where
  | goal
  | steps
  | constraints
  | verification
deriving DecidableEq, Repr

/-- The keywords, in the order in which they are tried. -/
def planKeywords : List (String × PlanSection) :=
  [("goal:", .goal), ("steps:", .steps), ("constraints:", .constraints), ("verification:", .verification)]

/-- A decimal digit of any script, as `\d` matches it. -/
def isDecimal (c : Char) : Bool := (PyFloat.digitVal c).isSome

/-- What follows a match of `^\d+[.)]\s+`. -/
def dropNumber (text : List Char) : Option (List Char) :=
  match text.span isDecimal with
  | (_ :: _, mark :: space :: rest) =>
    if (mark = '.' ∨ mark = ')') ∧ isSpace space then some (rest.dropWhile isSpace) else none
  | _ => none

/-- What follows `"- "` or `"* "`. -/
def dropBullet : List Char → Option (List Char)
  | '-' :: ' ' :: rest => some rest
  | '*' :: ' ' :: rest => some rest
  | _ => none

/-- `text.split(":", 1)[1].strip()`. -/
def afterColon (text : List Char) : String := strip (String.ofList ((text.dropWhile (· ≠ ':')).drop 1))

inductive PlanLine where
  | header (keyword : PlanSection) (rest : String)
  | marked (text : String)
  | plain (text : String)
deriving DecidableEq, Repr

/-- The section whose keyword the line begins with. -/
def headerSection (text : String) : Option PlanSection :=
  (planKeywords.find? fun keyword => keyword.1.toList.isPrefixOf (lower text).toList).map Prod.snd

/-- A stripped line: a header, an entry without its markers, or plain text. -/
def planLine (text : String) : PlanLine :=
  match headerSection text with
  | some keyword => .header keyword (afterColon text.toList)
  | none =>
    let chars := text.toList
    if (dropNumber chars).isSome ∨ (dropBullet chars).isSome then
      let itemText := (dropNumber chars).getD chars
      .marked (strip (String.ofList ((dropBullet itemText).getD itemText)))
    else .plain text

/-! ## The parser -/

structure PlanParse where
  goal : String := ""
  steps : List String := []
  constraints : List String := []
  verification : List String := []
  currentSection : PlanSection := .steps

/-- Append where the section says; in the goal section, to the steps. -/
def PlanParse.add (p : PlanParse) (text : String) : PlanSection → PlanParse
  | .constraints => { p with constraints := p.constraints ++ [text] }
  | .verification => { p with verification := p.verification ++ [text] }
  | .goal | .steps => { p with steps := p.steps ++ [text] }

/-- Only `goal:` takes the text of its own line. -/
def PlanParse.line (p : PlanParse) : PlanLine → PlanParse
  | .header .goal rest => { p with goal := rest, currentSection := .goal }
  | .header keyword _ => { p with currentSection := keyword }
  | .marked itemText => if itemText = "" then p else p.add itemText p.currentSection
  | .plain text =>
    if p.currentSection = .goal ∧ p.goal = "" then { p with goal := text }
    else p.add text p.currentSection

def PlanParse.schema (p : PlanParse) : RawPlanSchema :=
  { goal := some p.goal
    steps := some (p.steps.map fun title => { title := some title })
    constraints := some p.constraints
    verification := some p.verification
    sourceFormat := some "text" }

/-- `_parse_plan_source_to_schema`. -/
def parsePlanSourceToSchema (loads : String → Except PyError (Option RawPlanSchema)) (planSourceText : String) :
    Except PyError PlanSchema := do
  match ← loads planSourceText with
  | some parsed => normalizePlanSchema parsed none
  | none =>
    let lines := planLines planSourceText
    if lines = [] then normalizePlanSchema { steps := some [{ title := some "Execute task" }] } none
    else normalizePlanSchema ((lines.map planLine).foldl PlanParse.line {}).schema none

/-- `PlannerStateService.create_plan_from_text`. -/
def createPlanFromText (loads : String → Except PyError (Option RawPlanSchema)) (amb : Ambient)
    (runId planSourceText : String) : Tx PlannerState := do
  let planSchema ← lift (parsePlanSourceToSchema loads planSourceText)
  createPlan amb runId planSourceText (planSchema.steps.map PlanStep.toRaw) (some planSchema.toRaw)

example : (planLines "Goal: fly\n1. search\r\n  2) - book \n\nConstraints:\n* cheap\n").map planLine =
    [.header .goal "fly", .marked "search", .marked "book", .header .constraints "", .marked "cheap"] := by
  decide +kernel

end Raef
