import Chip8.Directory
import Chip8.Proofs.Sink
import Mathlib.Tactic.SplitIfs

/-!
# Creating files

A path is created at a place, and there the contents are put. A place that can be created
is no folder, so no path leads through it, and all that was found before is found after:
the contents at the path itself, and at all other places what stood there. What is refused
does not change.
-/

namespace Chip8

namespace Path

theorem getLast?_intercalate_append_nil (x : UInt8) (pieces : List (List UInt8)) (h : pieces ≠ []) :
    ([x].intercalate (pieces ++ [[]])).getLast? = some x := by
  induction pieces with
  | nil => exact absurd rfl h
  | cons piece pieces ih =>
    rw [List.cons_append, List.intercalate_cons_of_ne_nil (by simp)]
    by_cases hrest : pieces = []
    · subst hrest
      simp [List.intercalate_singleton]
    · rw [List.getLast?_append, ih hrest]
      rfl

/-- Only behind a slash at the end is there an empty component. -/
theorem splitOn_append_nil {p : Path} {pieces : List (List UInt8)} (hne : p.toList ≠ [])
    (h : p.toList.splitOn slash = pieces ++ [[]]) : p.endsInSlash = true := by
  have hjoin : [slash].intercalate (pieces ++ [[]]) = p.toList := by
    rw [← h, List.intercalate_splitOn]
  have hpieces : pieces ≠ [] := by
    rintro rfl
    exact hne (by rw [← hjoin, List.nil_append, List.intercalate_singleton])
  rw [endsInSlash, ← hjoin, getLast?_intercalate_append_nil slash pieces hpieces]
  simp

/-- A path that does not end in a slash has its last component last. -/
theorem components_eq_reverse_reversedNames {p : Path} (hne : p.toList ≠ [])
    (h : p.endsInSlash = false) : p.components = p.reversedNames.reverse := by
  rw [components, reversedNames]
  cases hpieces : (p.toList.splitOn slash).reverse with
  | nil => exact absurd (List.reverse_eq_nil_iff.mp hpieces) (List.splitOn_ne_nil slash p.toList)
  | cons last before =>
    have hsplit : p.toList.splitOn slash = before.reverse ++ [last] := by
      rw [← List.reverse_reverse (p.toList.splitOn slash), hpieces, List.reverse_cons]
    have hlast : ¬last = [] := by
      rintro rfl
      rw [splitOn_append_nil hne hsplit] at h
      cases h
    rw [List.dropWhile_cons_of_neg (by simpa using hlast), hsplit, ← List.map_reverse,
      List.reverse_cons]

end Path

namespace Directory

variable {dir : Directory} {p : Path} {place : Place} {e : IoError}

theorem put_put (dir : Directory) (p : Place) (entry entry' : Entry) :
    (dir.put p entry).put p entry' = dir.put p entry' := by
  simp [put, List.filter_filter]

/-! ## Following a path -/

/-- A step is taken in a folder that may be gone through, and the name is not too long. -/
theorem step_eq_ok_iff {q r : Place} {c : Component} :
    dir.step q c = .ok r ↔
      dir.refusal? .search q = none ∧ dir.at? q = some .folder ∧ c.isTooLong = false ∧
        r = q.enter c := by
  constructor
  · intro h
    rw [step] at h
    split at h
    · cases h
    · next hsearch =>
      split at h
      · cases h
      · cases h
      · cases h
      · next hfolder =>
        split_ifs at h with hlong
        cases h
        exact ⟨hsearch, hfolder, by simpa using hlong, rfl⟩
  · rintro ⟨hsearch, hfolder, hlong, rfl⟩
    simp [step, hsearch, hfolder, hlong]

theorem follow_append (dir : Directory) (q : Place) (cs ds : List Component) :
    dir.follow q (cs ++ ds) = dir.follow q cs >>= fun r => dir.follow r ds := List.foldlM_append

theorem follow_cons_eq_ok {q r : Place} {c : Component} {cs : List Component}
    (h : dir.follow q (c :: cs) = .ok r) :
    ∃ q', dir.step q c = .ok q' ∧ dir.follow q' cs = .ok r := by
  rw [follow, List.foldlM_cons] at h
  cases hstep : dir.step q c with
  | error e =>
    rw [hstep] at h
    cases h
  | ok q' =>
    rw [hstep] at h
    exact ⟨q', rfl, h⟩

theorem follow_cons_of_step {q q' : Place} {c : Component} (h : dir.step q c = .ok q')
    (cs : List Component) : dir.follow q (c :: cs) = dir.follow q' cs := by
  rw [follow, List.foldlM_cons, h]
  rfl

/-- Paths lead through folders only, and those stay what they are. -/
theorem follow_put (hplace : dir.at? place ≠ some .folder) (contents : Bytes) {q r : Place}
    {cs : List Component} (h : dir.follow q cs = .ok r) :
    (dir.put place (.file contents)).follow q cs = .ok r := by
  induction cs generalizing q with
  | nil => exact h
  | cons c cs ih =>
    obtain ⟨q', hstep, hrest⟩ := follow_cons_eq_ok h
    obtain ⟨hsearch, hfolder, hlong, rfl⟩ := step_eq_ok_iff.mp hstep
    -- the step is taken in a folder, and the new file stands in place of none
    have hne : q ≠ place := by
      rintro rfl
      exact hplace hfolder
    have hstep' : (dir.put place (.file contents)).step q c = .ok (q.enter c) :=
      step_eq_ok_iff.mpr ⟨hsearch, (dir.at?_put_of_ne _ hne).trans hfolder, hlong, rfl⟩
    rw [follow_cons_of_step hstep']
    exact ih hrest

/-- A path behind which nothing but the folder itself is asked for leads to a folder that may
be gone through. -/
theorem follow_here {q r : Place} {cs : List Component}
    (h : dir.follow q (cs ++ [.here]) = .ok r) :
    dir.follow q cs = .ok r ∧ dir.refusal? .search r = none ∧ dir.at? r = some .folder := by
  rw [follow_append] at h
  cases hcs : dir.follow q cs with
  | error e =>
    rw [hcs] at h
    cases h
  | ok r' =>
    rw [hcs] at h
    obtain ⟨_, hstep, hend⟩ := follow_cons_eq_ok h
    obtain ⟨hsearch, hfolder, -, rfl⟩ := step_eq_ok_iff.mp hstep
    cases hend
    exact ⟨rfl, hsearch, hfolder⟩

/-! ## The place of a created file -/

/-- What is known of a place at which a path can be created. -/
structure Creates (dir : Directory) (p : Path) (place : Place) : Prop where
  fault : p.fault? = none
  slash : p.endsInSlash = false
  names : place.names ≠ []
  noFolder : dir.at? place ≠ some .folder
  leads : dir.follow (dir.start p) p.reversedNames.reverse = .ok place

theorem placeIn_eq_ok {folder : Place} {c : Component} (h : dir.placeIn folder p c = .ok place) :
    p.endsInSlash = false ∧ c.isTooLong = false ∧ place = folder.enter c ∧ place.names ≠ [] ∧
      dir.at? place ≠ some .folder := by
  cases c with
  | here => cases h
  | up => cases h
  | name bytes =>
    rw [placeIn] at h
    split at h
    · cases h
    · split_ifs at h with hslash hlong
      split at h
      · cases h
      · next hfolder =>
        cases h
        exact ⟨by simpa using hslash, by simpa using hlong, rfl, by simp [Place.enter], hfolder⟩

/-- A file is created at the end of its path, in a folder, and not in place of one. -/
theorem creates_of_create (h : dir.create p = .ok place) : dir.Creates p place := by
  rw [create] at h
  cases hfault : p.fault? with
  | some fault =>
    rw [hfault] at h
    cases h
  | none =>
    simp only [hfault] at h
    cases hnames : p.reversedNames with
    | nil =>
      rw [hnames] at h
      cases h
    | cons last before =>
      simp only [hnames] at h
      cases hfollow : dir.follow (dir.start p) (before.reverse ++ [.here]) with
      | error e =>
        rw [hfollow] at h
        cases h
      | ok folder =>
        rw [hfollow] at h
        obtain ⟨hbefore, hsearch, hfolder⟩ := follow_here hfollow
        obtain ⟨hslash, hlong, rfl, hplace, hisFolder⟩ := placeIn_eq_ok h
        refine ⟨hfault, hslash, hplace, hisFolder, ?_⟩
        have hstep : dir.step folder last = .ok (folder.enter last) :=
          step_eq_ok_iff.mpr ⟨hsearch, hfolder, hlong, rfl⟩
        rw [hnames, List.reverse_cons, follow_append, hbefore]
        exact follow_cons_of_step hstep []

theorem toList_ne_nil_of_fault?_eq_none (h : p.fault? = none) : p.toList ≠ [] := by
  intro hnil
  have hempty : p = #[] := Array.toList_eq_nil_iff.mp hnil
  rw [hempty] at h
  cases h

/-- There are these contents at the place, and they can be read through the path unless
reading is refused. -/
structure Holds (dir : Directory) (p : Path) (place : Place) (contents : Bytes) : Prop where
  at? : dir.at? place = some (.file contents)
  read : dir.refusal? .read place = none → dir.read p = .ok contents

/-- A file that was created is found through the same path. -/
theorem Creates.holds (h : dir.Creates p place) (contents : Bytes) :
    (dir.put place (.file contents)).Holds p place contents where
  at? := dir.at?_put place _ h.names
  read := by
    intro hread
    have hcomponents := Path.components_eq_reverse_reversedNames
      (toList_ne_nil_of_fault?_eq_none h.fault) h.slash
    have hfollow := follow_put h.noFolder contents h.leads
    rw [Directory.read, h.fault, hcomponents]
    have hstart : (dir.put place (.file contents)).start p = dir.start p := rfl
    simp only [hstart, hfollow, hread, dir.at?_put place _ h.names]

/-- From one directory to the other nothing has changed but what is at the place. -/
structure ChangesAt (dir dir' : Directory) (place : Place) : Prop where
  working : dir'.working = dir.working
  refusal? : dir'.refusal? = dir.refusal?
  room : dir'.room = dir.room
  others : ∀ q ≠ place, dir'.at? q = dir.at? q

theorem ChangesAt.refl (dir : Directory) (place : Place) : dir.ChangesAt dir place :=
  ⟨rfl, rfl, rfl, fun _ _ => rfl⟩

theorem changesAt_put (dir : Directory) (place : Place) (entry : Entry) :
    dir.ChangesAt (dir.put place entry) place :=
  ⟨rfl, rfl, rfl, fun _ hq => dir.at?_put_of_ne entry hq⟩

/-! ## What takes the bytes -/

/-- What the bytes go to that are written at a place. -/
def outlet (dir : Directory) (place : Place) : Outlet :=
  match dir.at? place with
  | some (.device d) => d.outlet
  | _ => .sink (dir.room place)

/-- Neither a write nor a flush at the place fails. -/
def TakesAll (dir : Directory) (place : Place) : Prop :=
  ∀ s, dir.outlet place = .sink s → s.NeverFails

/-- There is no device at the place. -/
def IsRegular (dir : Directory) (place : Place) : Prop :=
  ∀ device, dir.at? place ≠ some (.device device)

theorem isRegular_of_new (h : dir.at? place = none) : dir.IsRegular place := by
  intro device
  rw [h]
  exact nofun

theorem IsRegular.emptied (h : dir.IsRegular place) :
    dir.emptied place = dir.put place (.file #[]) := by
  unfold Directory.emptied
  split
  · next device hdevice => exact absurd hdevice (h device)
  · rfl

theorem IsRegular.outlet (h : dir.IsRegular place) :
    dir.outlet place = .sink (dir.room place) := by
  unfold Directory.outlet
  split
  · next device hdevice => exact absurd hdevice (h device)
  · rfl

theorem IsRegular.takesAll (h : dir.IsRegular place) (hroom : (dir.room place).NeverFails) :
    dir.TakesAll place := by
  intro s hs
  rw [h.outlet] at hs
  cases hs
  exact hroom

end Directory

end Chip8
