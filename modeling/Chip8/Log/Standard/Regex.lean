import Chip8.Log.Standard.Regex.Meaning
import Chip8.Log.Standard.Regex.Parser
import Chip8.Log.Standard.Regex.Size
import Chip8.Log.Standard.Regex.Vocabulary

/-!
# Patterns for texts

A pattern describes texts; the question asked of it is whether it fits some part
of a text. A text that is no pattern is refused with the reason. So are patterns
that would take too much room, and those that ask for the words of every script,
unless all that fits is a few words.
-/

namespace Chip8

structure Regex where
  expr : Regex.Expr Regex.Atom
deriving DecidableEq, Repr

namespace Regex

/-- Whether words of any script are asked for. -/
def Expr.needsWords : Expr Atom → Bool
  | .empty => false
  | .atom (.look (.anyEdge _)) => true
  | .atom _ => false
  | .seq d e | .alt d e => d.needsWords || e.needsWords
  | .rep _ e | .group _ e => e.needsWords

inductive Refusal where
  | fault (f : Fault)
  | tooLarge
  | wordsUnknown
deriving DecidableEq, Repr

def Refusal.message (pattern : String) : Refusal → String
  | fault f => f.message pattern
  | tooLarge => "Compiled regex exceeds size limit of " ++ toString Layout.limit ++ " bytes."
  | wordsUnknown => "error building NFA"

def ofExpr (e : Expr Atom) : Except Refusal Regex :=
  if e.isVocabulary then .ok ⟨e⟩
  else if ¬ e.fitsIn .forward then .error .tooLarge
  else if e.needsWords then .error .wordsUnknown
  else if ¬ e.fitsIn .backward then .error .tooLarge
  else .ok ⟨e⟩

def read (pattern : String) : Except Refusal Regex :=
  match Tree.read pattern with
  | .error f => .error (.fault f)
  | .ok tree =>
    match tree.meaning {} with
    | .error f => .error (.fault f)
    | .ok (e, _) => ofExpr e

/-- Whether the pattern fits some part of a text. -/
def isIn (r : Regex) (text : String) : Bool := r.expr.isIn text.toList

example : ((read "a[0-9]+$").toOption.map fun r => (r.isIn "xa17", r.isIn "a17x")) =
    some (true, false) := by decide +kernel

end Regex

end Chip8
