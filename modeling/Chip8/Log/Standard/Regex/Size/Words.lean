import Chip8.Log.Standard.Regex.Size.Layout

/-!
# Room for words

Alternatives that are plain words are laid out as a tree, in which words that begin
alike share their beginning. The words keep their rank: where a word ends, those
behind it do not share with those before it.
-/

namespace Chip8.Regex.Words

/-- A word as its bytes. -/
abbrev Word := List Nat

/-- The words in parts, each of which ends before a word that is empty. Empty words
at the start count once. -/
def parts (words : List Word) : List (List Word) :=
  let found := go (words.dropWhile List.isEmpty)
  if words.head? = some [] then [] :: found else found
where
  go : List Word → List (List Word)
    | [] => [[]]
    | [] :: words => [] :: go words
    | word :: words =>
      match go words with
      | [] => [[word]]
      | part :: rest => (word :: part) :: rest

/-- Adds a word to those that begin with the same byte. -/
def enter (word : Word) (groups : List (Nat × List Word)) : List (Nat × List Word) :=
  match word with
  | [] => groups
  | b :: rest => go b rest groups
where
  go (b : Nat) (rest : Word) : List (Nat × List Word) → List (Nat × List Word)
    | [] => [(b, [rest])]
    | (c, words) :: groups =>
      if b = c then (c, rest :: words) :: groups else (c, words) :: go b rest groups

/-- The rests of the words behind their first byte, by that byte. -/
def groups (words : List Word) : List (Nat × List Word) := words.foldr enter []

/-- A state for the ways on from a place, by the number of first bytes. -/
def fork : Nat → Layout
  | 0 => {}
  | 1 => ⟨1, Layout.branchSize⟩
  | n => ⟨1, Layout.linkSize * n + Layout.branchSize⟩

/-- The room for the tree of words that are no longer than `fuel`, without its end. -/
def tree : Nat → List Word → Layout
  | 0, _ => {}
  | fuel + 1, words =>
    let forks := (parts words).map groups
    let own : Layout := ⟨1, Layout.branchSize * (forks.length - 1)⟩
    forks.foldl (fun l groups =>
      groups.foldl (fun l group =>
        if group.2.all List.isEmpty then l else l + tree fuel group.2)
        (l + fork groups.length)) own

def layout (words : List Word) : Layout :=
  ⟨1, 0⟩ + tree ((words.map List.length).foldl max 0 + 1) words

example : (layout [[0x61, 0x62], [0x61, 0x63]]).bytes = 184 := by decide
example : (layout [[0x62, 0x61], [0x63, 0x61]]).bytes = 252 := by decide

end Chip8.Regex.Words
