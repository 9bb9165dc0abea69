import Chip8.Log.Standard.Regex.Encoding
import Chip8.Log.Standard.Regex.Normal

/-!
# The words of an expression

If the texts that fit are a few short words, no automaton is needed to look for
them. The words are found from how a fitting text can begin: by bytes that are the
whole of it, or that are followed by what is not known. All numbers of words and
bytes are limited, and beyond the limits less is known than could be.
-/

namespace Chip8.Regex

/-- How a text that fits can begin. -/
structure Start where
  bytes : List Nat
  /-- Whether these bytes are all of it. -/
  whole : Bool := true
deriving DecidableEq, Repr

namespace Start

/-- What follows is not known. -/
def loosen (s : Start) : Start := { s with whole := false }

def cut (n : Nat) (s : Start) : Start :=
  if n < s.bytes.length then ⟨s.bytes.take n, false⟩ else s

/-- Joins equal bytes that follow each other. -/
def distinct : List Start → List Start
  | [] => []
  | s :: rest => go s rest
where
  go : Start → List Start → List Start
    | s, [] => [s]
    | s, t :: rest =>
      if s.bytes = t.bytes then go ⟨s.bytes, s.whole && t.whole⟩ rest else s :: go t rest

/-- Leaves out what begins like one before it. -/
def leading (kept : List Start) : List Start → List Start
  | [] => kept.reverse
  | s :: rest =>
    if kept.any fun k => k.bytes.isPrefixOf s.bytes then leading kept rest
    else leading (s :: kept) rest

end Start

/-- All ways to begin, those tried first in front, or `none` if they are not known. -/
abbrev Starts := Option (List Start)

namespace Starts

/-- The most ways to begin that are kept. -/
def limit : Nat := 250

/-- The most bytes of a word that are kept. -/
def wordLimit : Nat := 100

/-- The most characters of a set that are taken one by one. -/
def setLimit : Nat := 10

/-- The most rounds of a repetition that are taken one by one. -/
def roundLimit : Nat := 10

/-- No bytes, and nothing behind them. -/
def fresh : Starts := some [⟨[], true⟩]

def loosen (starts : Starts) : Starts := starts.map (·.map Start.loosen)

def union : Starts → Starts → Starts
  | some s, some t =>
    if s.length + t.length ≤ limit then some (Start.distinct (s ++ t))
    else
      let s := Start.distinct (s.map (.cut 4))
      let t := Start.distinct (t.map (.cut 4))
      if s.length + t.length ≤ limit then some (Start.distinct (s ++ t)) else none
  | _, _ => none

/-- Where one of the first is whole, one of the second follows. -/
def andThen : Starts → Starts → Starts
  | none, _ => none
  | some s, t =>
    if s.all (!·.whole) then some s
    else
      match t with
      | none => unknown s
      | some t =>
        if s.length * t.length ≤ limit then
          let longer (a : Start) : List Start :=
            if a.whole then t.map fun b => ⟨a.bytes ++ b.bytes, b.whole⟩ else [a]
          some ((Start.distinct (s.flatMap longer)).map (.cut wordLimit))
        else unknown s
where
  unknown (s : List Start) : Starts :=
    if s.any (·.bytes.isEmpty) then none else loosen (some s)

def ofSet (s : Charset) : Starts :=
  if setLimit < s.ranges.foldl (fun n r => n + (r.last + 1 - r.first)) 0 then none
  else
    some (s.ranges.flatMap fun r =>
      (List.range (r.last + 1 - r.first)).map fun i => ⟨bytesOf (r.first + i), true⟩)

def rounds (starts : Starts) : Nat → Starts
  | 0 => fresh
  | n + 1 => (rounds starts n).andThen starts

def repeated (bounds : Bounds) (starts : Starts) : Starts :=
  if bounds.least = 0 then
    let starts := if bounds.most = some 1 then starts else starts.loosen
    if bounds.greedy then starts.union fresh else fresh.union starts
  else
    let first := starts.rounds (min bounds.least roundLimit)
    if bounds.most = bounds.least ∧ bounds.least ≤ roundLimit then first else first.loosen

end Starts

namespace Expr

/-- How a text that fits can begin, besides what fits the alternatives before. The
parts before it in a sequence are given if there are some. -/
def starts (others : Starts) (before : Option Starts) : Expr Atom → Starts
  | seq d e =>
    starts others (some ((before.getD .fresh).andThen (starts (some []) none d))) e
  | alt d e =>
    match before with
    | none => starts (starts others none d) none e
    | some before => others.union (before.andThen (starts (starts (some []) none d) none e))
  | empty | atom (.look _) => others.union (before.getD .fresh)
  | atom (.text cs) =>
    let word := Start.cut Starts.wordLimit ⟨cs.flatMap (bytesOf ·.toNat), true⟩
    others.union ((before.getD .fresh).andThen (some [word]))
  | atom (.one _ s) => others.union ((before.getD .fresh).andThen (.ofSet s))
  | rep bounds e =>
    others.union ((before.getD .fresh).andThen (.repeated bounds (starts (some []) none e)))
  | group _ e => others.union ((before.getD .fresh).andThen (starts (some []) none e))

/-- Whether no place is asked for and no part has a number or a name. -/
def isPlain : Expr Atom → Bool
  | atom (.look _) | group _ _ => false
  | empty | atom _ => true
  | seq d e | alt d e => d.isPlain && e.isPlain
  | rep _ e => e.isPlain

/-- Bytes that are too common in texts to be looked for by themselves. -/
def isCommon (byte : Nat) : Bool :=
  0x80 ≤ byte ||
    "\n\r (),-./0129:_abcdefghilmnoprstuvxy|".toList.any fun c => c.toNat = byte

/-- Whether words are looked for as they are. Several words that begin alike are
looked for by what they share. -/
def wordsSuffice (count : Nat) (words : List Start) : Bool :=
  let shared := match words with
    | [] => []
    | s :: rest => rest.foldl (fun start (t : Start) => commonStart start t.bytes) s.bytes
  let byOne := 1 < count && 1 ≤ shared.length && shared.length ≤ 3 &&
    shared.head?.any (!isCommon ·)
  let byShared := 4 < shared.length || (1 < shared.length && 16 < words.length)
  let needed := if byOne then 1 else if byShared then shared.length else Starts.wordLimit
  words.all fun s => s.whole && s.bytes.length ≤ needed

/-- Whether the texts that fit are a few words, which are not empty. -/
def isVocabulary (e : Expr Atom) : Bool :=
  e.isPlain &&
    match e.starts (some []) none with
    | none => false
    | some [] => false
    | some starts =>
      starts.all (fun s => !s.bytes.isEmpty) &&
        wordsSuffice starts.length (Start.leading [] starts)

example : isVocabulary (alt (letter 'a') (rep { least := 1000, most := some 1000 } nothing)) = true :=
  by decide
example : isVocabulary (rep { least := 1, most := none } (letter 'a')) = false := by decide

end Expr

end Chip8.Regex
