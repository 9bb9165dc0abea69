import Chip8.Log
import Chip8.Log.Standard.Regex

/-!
# Log filters

A filter is written as rules separated by commas, and after a slash a pattern that
must fit some part of a message. A rule is a level, which then holds for every part,
or `name=level`, which holds for the parts whose name begins so; a name alone
lets everything pass. Of the rules that fit a part the longest name decides. A
filter without rules lets errors pass and nothing else.
-/

namespace Chip8.Log

/-- The most detailed level that passes; `none` stops every record. -/
abbrev Threshold := Option Level

structure Rule where
  name : Option String
  threshold : Threshold
deriving DecidableEq, Repr

structure Filter where
  rules : List Rule
  pattern : Option Regex := none
deriving DecidableEq, Repr

namespace Threshold

def admits (t : Threshold) (level : Level) : Bool :=
  match t with
  | none => false
  | some max => level.rank ≤ max.rank

/-- Level names are read in either case. -/
def ofName? (s : String) : Option Threshold :=
  match s.toLower with
  | "off" => some none
  | "error" => some (some .error)
  | "warn" => some (some .warn)
  | "info" => some (some .info)
  | "debug" => some (some .debug)
  | "trace" => some (some .trace)
  | _ => none

end Threshold

namespace Rule

def everything : Threshold := some .trace

def nameLength (r : Rule) : Nat := (r.name.map String.utf8ByteSize).getD 0

def fits (r : Rule) (target : String) : Bool :=
  match r.name with
  | none => true
  | some name => name.toList.isPrefixOf target.toList

end Rule

namespace Filter

/-- Of two rules that fit equally well the later one counts. -/
def ruleFor? (f : Filter) (target : String) : Option Rule :=
  f.rules.foldl (fun best r =>
    if r.fits target && decide ((best.map Rule.nameLength).getD 0 ≤ r.nameLength)
    then some r else best) none

def admits (f : Filter) (r : Record) : Bool :=
  (match f.ruleFor? r.source.target with
    | none => false
    | some rule => rule.threshold.admits r.level) &&
  (match f.pattern with
    | none => true
    | some pattern => pattern.isIn r.message)

/-- A rule replaces an earlier one of the same name. -/
def insertRule (rules : List Rule) (r : Rule) : List Rule :=
  if rules.any (·.name = r.name) then rules.map fun old => if old.name = r.name then r else old
  else rules ++ [r]

/-- One rule, or the part of the text that is none. -/
def readRule (text : List Char) : Except String Rule :=
  match text.splitOn '=' with
  | [name] =>
    match Threshold.ofName? (String.ofList name) with
    | some t => .ok ⟨none, t⟩
    | none => .ok ⟨some (String.ofList name), Rule.everything⟩
  | [name, level] =>
    if strip level = [] then .ok ⟨some (String.ofList name), Rule.everything⟩
    else
      match Threshold.ofName? (String.ofList (strip level)) with
      | some t => .ok ⟨some (String.ofList name), t⟩
      | none => .error (String.ofList (strip level))
  | _ => .error (String.ofList text)

def warning (text : String) : String := "warning: " ++ text ++ ", ignoring it\n"

def ruleWarning (text : String) : String := warning ("invalid logging spec '" ++ text ++ "'")

def readRules (texts : List (List Char)) : List Rule × List String :=
  texts.foldl (fun (rules, warnings) text =>
    if strip text = [] then (rules, warnings)
    else
      match readRule (strip text) with
      | .ok r => (insertRule rules r, warnings)
      | .error bad => (rules, warnings ++ [ruleWarning bad])) ([], [])

/-- A pattern, or a warning about a text that is none. -/
def readPattern (text : String) : Option Regex × List String :=
  match Regex.read text with
  | .ok pattern => (some pattern, [])
  | .error e => (none, [warning ("invalid regex filter - " ++ e.message text)])

/-- Reads a filter. What is no rule or no pattern is left out, with a warning for
each. -/
def read (spec : String) : Filter × List String :=
  let finish (rules : List Rule) (pattern : Option Regex) : Filter :=
    { rules := if rules = [] then [⟨none, some .error⟩] else rules, pattern }
  match spec.toList.splitOn '/' with
  | [rules] =>
    let (rules, warnings) := readRules (rules.splitOn ',')
    (finish rules none, warnings)
  | [rules, pattern] =>
    let (rules, warnings) := readRules (rules.splitOn ',')
    let (pattern, more) := readPattern (String.ofList pattern)
    (finish rules pattern, warnings ++ more)
  | _ =>
    (finish [] none, [warning ("invalid logging spec '" ++ spec ++ "' (too many '/'s)")])

end Filter

end Chip8.Log
