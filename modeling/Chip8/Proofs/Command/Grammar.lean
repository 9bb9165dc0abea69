import Chip8.Proofs.Command.Address
import Mathlib.Data.List.Basic
import Mathlib.Tactic.SplitIfs

/-!
# The grammar of command lines

A command line is a sequence of items, each written as one argument or as two. It is read
item by item, and what was read so far is always what its items ask for: the last file for
the listing, the last load address, whether one of them wants quiet or more to be said.
Reading ends at the end of the arguments, at a request for help, or at the first argument
that is no item or a second program, and nothing behind that place matters.
-/

namespace Chip8.Command

/-! ## Items as they are written -/

def helpNames : List Bytes := ["-h", "--help"].map Utf8.encode
def quietNames : List Bytes := ["-q", "--quiet"].map Utf8.encode
def verboseNames : List Bytes := ["-v", "--verbose"].map Utf8.encode
def outputNames : List Bytes := ["-o", "--output"].map Utf8.encode
def baseNames : List Bytes := ["-b", "--base"].map Utf8.encode

def optionNames : List Bytes :=
  helpNames ++ quietNames ++ verboseNames ++ outputNames ++ baseNames

/-- The arguments that an item is written as. A value is taken as it is. -/
inductive Spells : Item → List Bytes → Prop where
  | help {arg : Bytes} (h : arg ∈ helpNames) : Spells .help [arg]
  | quiet {arg : Bytes} (h : arg ∈ quietNames) : Spells .quiet [arg]
  | verbose {arg : Bytes} (h : arg ∈ verboseNames) : Spells .verbose [arg]
  | output {option path : Bytes} (h : option ∈ outputNames) :
      Spells (.output path) [option, path]
  | base {option value : Bytes} {load : UInt16} (h : option ∈ baseNames)
      (hload : readAddress (Utf8.decode value) = .ok load) : Spells (.base load) [option, value]
  | rom {path : Bytes} (h : path[0]? ≠ some hyphen) : Spells (.rom path) [path]

/-- The arguments are the items, written one after the other. -/
inductive Written : List Item → List Bytes → Prop where
  | nil : Written [] []
  | cons {item : Item} {items : List Item} {args rest : List Bytes} (h : Spells item args)
      (hrest : Written items rest) : Written (item :: items) (args ++ rest)

/-- Arguments that do not begin with an item, and what is wrong with them. -/
inductive Unreadable : List Bytes → UsageError → Prop where
  | noPath {option : Bytes} (h : option ∈ outputNames) : Unreadable [option] (.missingValue "-o")
  | noAddress {option : Bytes} (h : option ∈ baseNames) :
      Unreadable [option] (.missingValue "--base")
  | invalidAddress {option value : Bytes} {rest : List Bytes} (h : option ∈ baseNames)
      (hvalue : ∀ load, readAddress (Utf8.decode value) ≠ .ok load) :
      Unreadable (option :: value :: rest) (.invalidAddress (Utf8.decode value))
  | unknown {arg : Bytes} {rest : List Bytes} (h : arg[0]? = some hyphen)
      (hname : arg ∉ optionNames) : Unreadable (arg :: rest) (.unknownOption (Utf8.decode arg))

/-! ## Reading one item -/

section

variable {arg : Bytes} {args rest after : List Bytes} {item : Item} {e : UsageError}

theorem hyphen_of_mem_optionNames : ∀ arg ∈ optionNames, arg[0]? = some hyphen := by decide

theorem isOutput_iff : isOutput arg = true ↔ arg ∈ outputNames := by
  simp [isOutput, outputNames]

theorem isBase_iff : isBase arg = true ↔ arg ∈ baseNames := by
  simp [isBase, baseNames]

theorem flag?_eq_none_of_takesValue : ∀ arg ∈ outputNames ++ baseNames, flag? arg = none := by
  decide

theorem isOutput_of_mem_baseNames : ∀ arg ∈ baseNames, isOutput arg = false := by decide

theorem spells_of_flag? (h : flag? arg = some item) : Spells item [arg] := by
  unfold flag? at h
  split_ifs at h with hhelp hquiet hverbose
  · cases h
    exact .help (by simpa [helpNames] using hhelp.symm)
  · cases h
    exact .quiet (by simpa [quietNames] using hquiet.symm)
  · cases h
    exact .verbose (by simpa [verboseNames] using hverbose.symm)

theorem mem_optionNames_of_flag? (h : flag? arg = some item) : arg ∈ optionNames := by
  have hspells := spells_of_flag? h
  cases hspells with
  | help hname => simp [optionNames, hname]
  | quiet hname => simp [optionNames, hname]
  | verbose hname => simp [optionNames, hname]
  | rom hpath =>
      unfold flag? at h
      split_ifs at h <;> cases h

/-- An argument that is no name of an option is read by its first byte. -/
theorem readItem_of_not_mem_optionNames (h : arg ∉ optionNames) (rest : List Bytes) :
    readItem arg rest =
      if arg[0]? = some hyphen then .error (.unknownOption (Utf8.decode arg))
      else .ok (.rom arg, rest) := by
  have hflag : flag? arg = none := by
    cases hflag : flag? arg with
    | none => rfl
    | some item => exact absurd (mem_optionNames_of_flag? hflag) h
  have houtput : isOutput arg = false := by
    rw [Bool.eq_false_iff]
    exact fun hout => h (by simp [optionNames, isOutput_iff.mp hout])
  have hbase : isBase arg = false := by
    rw [Bool.eq_false_iff]
    exact fun hbase => h (by simp [optionNames, isBase_iff.mp hbase])
  simp [readItem, hflag, houtput, hbase]

theorem readItem_output (h : arg ∈ outputNames) (rest : List Bytes) :
    readItem arg rest =
      match rest with
      | [] => .error (.missingValue "-o")
      | path :: rest => .ok (.output path, rest) := by
  unfold readItem
  rw [flag?_eq_none_of_takesValue arg (List.mem_append_left _ h), isOutput_iff.mpr h]
  rfl

theorem readItem_base (h : arg ∈ baseNames) (rest : List Bytes) :
    readItem arg rest =
      match rest with
      | [] => .error (.missingValue "--base")
      | value :: rest => (readAddress (Utf8.decode value)).map fun load => (.base load, rest) := by
  unfold readItem
  rw [flag?_eq_none_of_takesValue arg (List.mem_append_right _ h),
    isOutput_of_mem_baseNames arg h, isBase_iff.mpr h]
  rfl

/-- What is written as an item is read as that item. -/
theorem Spells.readItem_eq (h : Spells item args) (hargs : args ++ after = arg :: rest) :
    readItem arg rest = .ok (item, after) := by
  have hflag : ∀ name item, flag? name = some item → [name] ++ after = arg :: rest →
      readItem arg rest = .ok (item, after) := by
    rintro name item hname hargs
    cases hargs
    unfold readItem
    rw [hname]
    rfl
  cases h with
  | help h =>
      have htable : ∀ name ∈ helpNames, flag? name = some .help := by decide
      exact hflag _ _ (htable _ h) hargs
  | quiet h =>
      have htable : ∀ name ∈ quietNames, flag? name = some .quiet := by decide
      exact hflag _ _ (htable _ h) hargs
  | verbose h =>
      have htable : ∀ name ∈ verboseNames, flag? name = some .verbose := by decide
      exact hflag _ _ (htable _ h) hargs
  | output h =>
      cases hargs
      rw [readItem_output h]
      rfl
  | base h hload =>
      cases hargs
      rw [readItem_base h]
      change (readAddress _).map _ = _
      rw [hload]
      rfl
  | rom h =>
      cases hargs
      rw [readItem_of_not_mem_optionNames fun hname => h (hyphen_of_mem_optionNames _ hname),
        if_neg h]
      rfl

theorem Unreadable.readItem_eq (h : Unreadable (arg :: rest) e) : readItem arg rest = .error e := by
  cases h with
  | noPath h => rw [readItem_output h]
  | noAddress h => rw [readItem_base h]
  | @invalidAddress _ value rest h hvalue =>
      rw [readItem_base h]
      cases hread : readAddress (Utf8.decode value) with
      | ok load => exact absurd hread (hvalue load)
      | error e =>
          cases readAddress_eq_error hread
          change (readAddress _).map _ = _
          rw [hread]
          rfl
  | unknown h hname => rw [readItem_of_not_mem_optionNames hname, if_pos h]

theorem readItem_rom {path : Bytes} (h : path[0]? ≠ some hyphen) (rest : List Bytes) :
    readItem path rest = .ok (.rom path, rest) :=
  (Spells.rom h).readItem_eq rfl

theorem Spells.exists_cons (h : Spells item args) : ∃ arg more, args = arg :: more := by
  cases h <;> exact ⟨_, _, rfl⟩

/-- Every argument begins an item or is unreadable. -/
theorem spells_or_unreadable (arg : Bytes) (rest : List Bytes) :
    (∃ item args after, Spells item args ∧ args ++ after = arg :: rest) ∨
      ∃ e, Unreadable (arg :: rest) e := by
  by_cases hname : arg ∈ optionNames
  · simp only [optionNames, List.mem_append, or_assoc] at hname
    rcases hname with h | h | h | h | h
    · exact Or.inl ⟨.help, [arg], rest, .help h, rfl⟩
    · exact Or.inl ⟨.quiet, [arg], rest, .quiet h, rfl⟩
    · exact Or.inl ⟨.verbose, [arg], rest, .verbose h, rfl⟩
    · cases rest with
      | nil => exact Or.inr ⟨_, .noPath h⟩
      | cons path rest => exact Or.inl ⟨.output path, [arg, path], rest, .output h, rfl⟩
    · cases rest with
      | nil => exact Or.inr ⟨_, .noAddress h⟩
      | cons value rest =>
          cases hread : readAddress (Utf8.decode value) with
          | ok load => exact Or.inl ⟨.base load, [arg, value], rest, .base h hread, rfl⟩
          | error e =>
              refine Or.inr ⟨_, .invalidAddress h fun load hload => ?_⟩
              rw [hread] at hload
              cases hload
  · by_cases hhyphen : arg[0]? = some hyphen
    · exact Or.inr ⟨_, .unknown hhyphen hname⟩
    · exact Or.inl ⟨.rom arg, [arg], rest, .rom hhyphen, rfl⟩

end

/-! ## What items ask for -/

def Item.rom? : Item → Option Path
  | .rom path => some path
  | _ => none

def Item.output? : Item → Option Path
  | .output path => some path
  | _ => none

def Item.base? : Item → Option UInt16
  | .base load => some load
  | _ => none

def roms (items : List Item) : List Path := items.filterMap Item.rom?
def outputs (items : List Item) : List Path := items.filterMap Item.output?
def bases (items : List Item) : List UInt16 := items.filterMap Item.base?

theorem roms_append (items items' : List Item) :
    roms (items ++ items') = roms items ++ roms items' :=
  List.filterMap_append

/-- The items name one program, and the job is the one that they ask for. -/
structure AskFor (items : List Item) (job : Job) (verbose : Bool) : Prop where
  rom : roms items = [job.rom]
  output : job.output = (outputs items).getLast?
  load : job.config.load = (bases items).getLast?.getD 0x200
  entry : job.config.entry = 0
  report : job.report = decide (.quiet ∉ items)
  verbose : verbose = decide (.verbose ∈ items)

/-- The request that has read these items. -/
def gather (items : List Item) : Request where
  rom := (roms items).head?
  output := (outputs items).getLast?
  load := (bases items).getLast?.getD Address.defaultLoad
  report := decide (.quiet ∉ items)
  verbose := decide (.verbose ∈ items)

section

variable {items : List Item} {item : Item} {r : Request}

theorem add_gather (h : (roms (items ++ [item])).length ≤ 1) :
    (gather items).add item = .ok (gather (items ++ [item])) := by
  cases item with
  | rom path =>
      have hnone : items.filterMap Item.rom? = [] := by simpa [roms, Item.rom?] using h
      simp [Request.add, gather, roms, outputs, bases, Item.rom?, Item.output?, Item.base?, hnone]
  | _ => simp [Request.add, gather, roms, outputs, bases, Item.rom?, Item.output?, Item.base?]

theorem add_gather_rom (h : roms items ≠ []) (path : Path) :
    (gather items).add (.rom path) = .error .severalRoms := by
  obtain ⟨first, others, hroms⟩ := List.exists_cons_of_ne_nil h
  simp [Request.add, gather, hroms]

theorem AskFor.finish_gather {job : Job} {verbose : Bool} (h : AskFor items job verbose) :
    (gather items).finish = .ok (.run job verbose) := by
  obtain ⟨rom, output, ⟨load, entry⟩, report⟩ := job
  obtain ⟨hrom, houtput, hload, hentry, hreport, hverbose⟩ := h
  simp only at hrom houtput hload hentry hreport
  subst houtput hload hentry hreport hverbose
  simp [Request.finish, gather, hrom, Address.defaultLoad]

theorem exists_askFor {rom : Path} (h : roms items = [rom]) :
    ∃ job verbose, AskFor items job verbose := by
  let config : Config := { load := (bases items).getLast?.getD 0x200 }
  let job : Job :=
    { rom, output := (outputs items).getLast?, config, report := decide (.quiet ∉ items) }
  exact ⟨job, decide (.verbose ∈ items), ⟨h, rfl, rfl, rfl, rfl, rfl⟩⟩

theorem finish_gather_of_roms_eq_nil (h : roms items = []) :
    (gather items).finish = .error .noRom := by
  simp [Request.finish, gather, h]

/-! ## Reading all of them -/

theorem readFrom_cons (r : Request) (arg : Bytes) (rest : List Bytes) :
    readFrom r (arg :: rest) =
      match readItem arg rest with
      | .error e => .error e
      | .ok (item, after) =>
        if item = .help then .ok .help else (r.add item).bind fun r => readFrom r after := by
  rw [readFrom]
  split
  · next he => rw [he]
  · next he =>
      rw [he]
      exact (if_pos rfl).symm
  · next item after hhelp he =>
      simp only [he, if_neg hhelp]
      cases r.add item with
      | ok r => rfl
      | error e => rfl

theorem readFrom_of_item {arg : Bytes} {rest after : List Bytes}
    (h : readItem arg rest = .ok (item, after)) (hhelp : item ≠ .help) :
    readFrom r (arg :: rest) = (r.add item).bind fun r => readFrom r after := by
  rw [readFrom_cons, h]
  exact if_neg hhelp

theorem readFrom_of_help {arg : Bytes} (h : arg ∈ helpNames) (rest : List Bytes) :
    readFrom r (arg :: rest) = .ok .help := by
  have hitem : readItem arg rest = .ok (.help, rest) := (Spells.help h).readItem_eq rfl
  rw [readFrom_cons, hitem]
  exact if_pos rfl

theorem readFrom_of_unreadable {args : List Bytes} {e : UsageError} (h : Unreadable args e) :
    readFrom r args = .error e := by
  cases args with
  | nil => cases h
  | cons arg rest => rw [readFrom_cons, h.readItem_eq]

/-- What is wrong behind these items, with the arguments that are left. -/
inductive Fails (items : List Item) : List Bytes → UsageError → Prop where
  | noRom (h : roms items = []) : Fails items [] .noRom
  | secondRom {path : Bytes} {rest : List Bytes} (h : roms items ≠ [])
      (hpath : path[0]? ≠ some hyphen) : Fails items (path :: rest) .severalRoms
  | unreadable {args : List Bytes} {e : UsageError} (h : Unreadable args e) : Fails items args e

/-- How reading ends behind these items, at the arguments that are left. -/
inductive Stops (items : List Item) : List Bytes → Except UsageError Invocation → Prop where
  | complete {job : Job} {verbose : Bool} (h : AskFor items job verbose) :
      Stops items [] (.ok (.run job verbose))
  | help {arg : Bytes} {rest : List Bytes} (h : arg ∈ helpNames) :
      Stops items (arg :: rest) (.ok .help)
  | fails {args : List Bytes} {e : UsageError} (h : Fails items args e) :
      Stops items args (.error e)

theorem Stops.readFrom_eq {args : List Bytes} {result : Except UsageError Invocation}
    (h : Stops items args result) : readFrom (gather items) args = result := by
  cases h with
  | complete h => rw [readFrom, h.finish_gather]
  | help h => exact readFrom_of_help h _
  | fails h =>
      cases h with
      | noRom h => rw [readFrom, finish_gather_of_roms_eq_nil h]
      | secondRom h hpath =>
          rw [readFrom_of_item (readItem_rom hpath _) (by simp), add_gather_rom h]
          rfl
      | unreadable h => exact readFrom_of_unreadable h

/-- There is no room for a second program. -/
theorem exists_rom_of_length_roms {before : List Item} (h : (roms before).length ≤ 1)
    (hmore : ¬(roms (before ++ [item])).length ≤ 1) : roms before ≠ [] ∧ ∃ path, item = .rom path := by
  rw [roms_append, List.length_append] at hmore
  cases item with
  | rom path =>
      refine ⟨?_, path, rfl⟩
      rintro hnone
      rw [hnone] at hmore
      exact hmore (Nat.le_refl 1)
  | _ => exact absurd h hmore

/-- One item is read: it is gathered with the others unless it is a second program. -/
theorem readFrom_gather_item {before : List Item} {args : List Bytes} (h : Spells item args)
    (hhelp : item ≠ .help) (hroms : (roms before).length ≤ 1) (rest : List Bytes) :
    readFrom (gather before) (args ++ rest) =
      if (roms (before ++ [item])).length ≤ 1 then readFrom (gather (before ++ [item])) rest
      else .error .severalRoms := by
  obtain ⟨arg, more, rfl⟩ := h.exists_cons
  rw [List.cons_append, readFrom_of_item (h.readItem_eq (List.cons_append ..)) hhelp]
  split_ifs with hmore
  · rw [add_gather hmore]
    rfl
  · obtain ⟨hsome, path, rfl⟩ := exists_rom_of_length_roms hroms hmore
    rw [add_gather_rom hsome]
    rfl

theorem length_roms_le_append (before items : List Item) :
    (roms before).length ≤ (roms (before ++ items)).length := by
  rw [roms_append, List.length_append]
  exact Nat.le_add_right _ _

/-- Items are read one after the other: they are gathered up to a second program. -/
theorem readFrom_gather_append {items : List Item} {args : List Bytes} (before : List Item)
    (h : Written items args) (hhelp : .help ∉ items) (hroms : (roms before).length ≤ 1)
    (rest : List Bytes) :
    readFrom (gather before) (args ++ rest) =
      if (roms (before ++ items)).length ≤ 1 then readFrom (gather (before ++ items)) rest
      else .error .severalRoms := by
  induction h generalizing before with
  | nil => rw [List.append_nil, if_pos hroms, List.nil_append]
  | @cons item items args behind h hitems ih =>
      obtain ⟨hitem, hothers⟩ := not_or.mp (List.mem_cons.not.mp hhelp)
      rw [List.append_assoc, readFrom_gather_item h (Ne.symm hitem) hroms,
        List.append_cons before item items]
      split_ifs with hmore hall hall
      · rw [ih _ hothers hmore, if_pos hall]
      · rw [ih _ hothers hmore, if_neg hall]
      · exact absurd (Nat.le_trans (length_roms_le_append _ _) hall) hmore
      · rfl

/-- Reading goes as far as there are items, and then it ends in one of its ways. -/
theorem exists_stops (before : List Item) (hroms : (roms before).length ≤ 1)
    (args : List Bytes) :
    ∃ items written rest result, args = written ++ rest ∧ Written items written ∧
      .help ∉ items ∧ (roms (before ++ items)).length ≤ 1 ∧ Stops (before ++ items) rest result := by
  induction hlength : args.length using Nat.strongRecOn generalizing args before with
  | _ n ih =>
    -- reading ends here, behind no further item
    have hhere : ∀ {result}, Stops before args result → ∃ items written rest result,
        args = written ++ rest ∧ Written items written ∧ .help ∉ items ∧
          (roms (before ++ items)).length ≤ 1 ∧ Stops (before ++ items) rest result := by
      intro result hstops
      refine ⟨[], [], args, result, rfl, .nil, List.not_mem_nil, ?_⟩
      rw [List.append_nil]
      exact ⟨hroms, hstops⟩
    cases args with
    | nil =>
        cases hprograms : roms before with
        | nil => exact hhere (.fails (.noRom hprograms))
        | cons rom others =>
            have hothers : others = [] := by simpa [hprograms] using hroms
            obtain ⟨job, verbose, hask⟩ := exists_askFor (hprograms.trans (congrArg _ hothers))
            exact hhere (.complete hask)
    | cons arg rest =>
        rcases spells_or_unreadable arg rest with ⟨item, args, after, hitem, hargs⟩ | ⟨e, he⟩
        · by_cases hhelp : item = .help
          · subst hhelp
            cases hitem with
            | help hname =>
                cases hargs
                exact hhere (.help hname)
          · by_cases hmore : (roms (before ++ [item])).length ≤ 1
            · -- the item is read, and fewer arguments are left
              have hshorter : after.length < n := by
                obtain ⟨first, more, rfl⟩ := hitem.exists_cons
                rw [← hlength, ← hargs, List.length_append, List.length_cons]
                omega
              obtain ⟨items, written, rest', result, rfl, hwritten, hothers, hlimit, hstops⟩ :=
                ih after.length hshorter _ hmore after rfl
              refine ⟨item :: items, args ++ written, rest', result, ?_, .cons hitem hwritten,
                ?_, ?_⟩
              · rw [List.append_assoc, hargs]
              · rw [List.mem_cons]
                exact not_or.mpr ⟨Ne.symm hhelp, hothers⟩
              · rw [List.append_cons before item items]
                exact ⟨hlimit, hstops⟩
            · obtain ⟨hsome, path, rfl⟩ := exists_rom_of_length_roms hroms hmore
              cases hitem with
              | rom hpath =>
                  cases hargs
                  exact hhere (.fails (.secondRom hsome hpath))
        · exact hhere (.fails (.unreadable he))

end

theorem read_eq_readFrom_gather (args : List Bytes) : read args = readFrom (gather []) args := rfl

/-- Behind items that are in order so far, reading goes on with what they ask for. -/
theorem read_append_of_written {items : List Item} {written : List Bytes}
    (h : Written items written) (hhelp : .help ∉ items) (hroms : (roms items).length ≤ 1)
    (rest : List Bytes) : read (written ++ rest) = readFrom (gather items) rest := by
  rw [read_eq_readFrom_gather, readFrom_gather_append [] h hhelp (Nat.zero_le 1),
    List.nil_append, if_pos hroms]

/-- The result of reading is how it ends behind the items. -/
theorem read_eq_iff {args : List Bytes} {result : Except UsageError Invocation} :
    read args = result ↔ ∃ items written rest, args = written ++ rest ∧ Written items written ∧
      .help ∉ items ∧ (roms items).length ≤ 1 ∧ Stops items rest result := by
  have hstops : ∀ {items written rest} {result : Except UsageError Invocation},
      Written items written → .help ∉ items → (roms items).length ≤ 1 → Stops items rest result →
      read (written ++ rest) = result := by
    intro items written rest result hwritten hhelp hroms hstops
    rw [read_append_of_written hwritten hhelp hroms, hstops.readFrom_eq]
  constructor
  · rintro rfl
    obtain ⟨items, written, rest, result, rfl, hwritten, hhelp, hroms, hstop⟩ :=
      exists_stops [] (Nat.zero_le 1) args
    refine ⟨items, written, rest, rfl, hwritten, hhelp, hroms, ?_⟩
    rw [hstops hwritten hhelp hroms hstop]
    exact hstop
  · rintro ⟨items, written, rest, rfl, hwritten, hhelp, hroms, hstop⟩
    exact hstops hwritten hhelp hroms hstop

section

variable {items items' : List Item} {args : List Bytes}

/-- A line of items without a request for help is read to its end. -/
theorem read_of_written (h : Written items args) (hhelp : .help ∉ items) :
    read args =
      if (roms items).length ≤ 1 then (gather items).finish else .error .severalRoms := by
  have hread := readFrom_gather_append [] h hhelp (Nat.zero_le 1) []
  rw [List.append_nil, List.nil_append] at hread
  rw [read_eq_readFrom_gather, hread, readFrom]

/-- Only the order of the files and the order of the load addresses matter. -/
theorem gather_eq_of_perm (hperm : items.Perm items') (hroms : (roms items).length ≤ 1)
    (houtputs : outputs items = outputs items') (hbases : bases items = bases items') :
    gather items = gather items' := by
  have hprograms : roms items = roms items' := by
    have hpermRoms : (roms items).Perm (roms items') := hperm.filterMap Item.rom?
    cases hitems : roms items with
    | nil => exact (List.nil_perm.mp (hitems ▸ hpermRoms)).symm
    | cons rom others =>
        have hothers : others = [] := by simpa [hitems] using hroms
        subst hothers
        exact List.singleton_perm.mp (hitems ▸ hpermRoms)
  simp only [gather, hprograms, houtputs, hbases, hperm.mem_iff]

end

/-- A command line is understood exactly if it is a sequence of items with one program and
without a request for help, and then it asks for what these items ask for. It is taken as a
request for help exactly if one stands behind items that are in order so far, and otherwise
it is refused for what is wrong behind them. The items may come in any order, as long as the
files for the listing keep theirs and the load addresses keep theirs. -/
theorem read_follows_grammar (args : List Bytes) :
    (∀ job verbose, read args = .ok (.run job verbose) ↔
      ∃ items, Written items args ∧ .help ∉ items ∧ AskFor items job verbose) ∧
    (read args = .ok .help ↔
      ∃ items written name rest, args = written ++ name :: rest ∧ Written items written ∧
        .help ∉ items ∧ (roms items).length ≤ 1 ∧ name ∈ helpNames) ∧
    (∀ e, read args = .error e ↔
      ∃ items written rest, args = written ++ rest ∧ Written items written ∧
        .help ∉ items ∧ (roms items).length ≤ 1 ∧ Fails items rest e) ∧
    ∀ items items' args', Written items args → Written items' args' → .help ∉ items →
      items.Perm items' → outputs items = outputs items' → bases items = bases items' →
      read args' = read args := by
  refine ⟨?_, ?_, ?_, ?_⟩
  · intro job verbose
    rw [read_eq_iff]
    constructor
    · rintro ⟨items, written, rest, rfl, hwritten, hhelp, -, hstops⟩
      cases hstops with
      | complete hask =>
          rw [List.append_nil]
          exact ⟨items, hwritten, hhelp, hask⟩
    · rintro ⟨items, hwritten, hhelp, hask⟩
      have hroms : (roms items).length ≤ 1 := Nat.le_of_eq (congrArg List.length hask.rom)
      exact ⟨items, args, [], (List.append_nil args).symm, hwritten, hhelp, hroms, .complete hask⟩
  · rw [read_eq_iff]
    constructor
    · rintro ⟨items, written, rest, rfl, hwritten, hhelp, hroms, hstops⟩
      cases hstops with
      | help hname => exact ⟨items, written, _, _, rfl, hwritten, hhelp, hroms, hname⟩
    · rintro ⟨items, written, name, rest, rfl, hwritten, hhelp, hroms, hname⟩
      exact ⟨items, written, name :: rest, rfl, hwritten, hhelp, hroms, .help hname⟩
  · intro e
    rw [read_eq_iff]
    constructor
    · rintro ⟨items, written, rest, rfl, hwritten, hhelp, hroms, hstops⟩
      cases hstops with
      | fails hfails => exact ⟨items, written, rest, rfl, hwritten, hhelp, hroms, hfails⟩
    · rintro ⟨items, written, rest, rfl, hwritten, hhelp, hroms, hfails⟩
      exact ⟨items, written, rest, rfl, hwritten, hhelp, hroms, .fails hfails⟩
  · intro items items' args' hwritten hwritten' hhelp hperm houtputs hbases
    have hhelp' : .help ∉ items' := fun h => hhelp (hperm.mem_iff.mpr h)
    have hlength : (roms items').length = (roms items).length :=
      (hperm.filterMap Item.rom?).length_eq.symm
    rw [read_of_written hwritten hhelp, read_of_written hwritten' hhelp', hlength]
    split_ifs with hroms
    · rw [gather_eq_of_perm hperm hroms houtputs hbases]
    · rfl

/-- The file `-q` for the listing of the program `r`, and the same line in another order. -/
theorem read_follows_grammar_reordered :
    read (["-o", "-q", "r", "--base", "0x600"].map Utf8.encode) =
        .ok (.run { rom := #[0x72], output := some #[0x2D, 0x71], config := { load := 0x600 } }
          false) ∧
      read (["--base", "0x600", "r", "-o", "-q"].map Utf8.encode) =
        read (["-o", "-q", "r", "--base", "0x600"].map Utf8.encode) := by
  have houtput : Spells (.output #[0x2D, 0x71]) (["-o", "-q"].map Utf8.encode) :=
    .output (by decide)
  have hrom : Spells (.rom #[0x72]) (["r"].map Utf8.encode) := .rom (by decide)
  have hbase : Spells (.base 0x600) (["--base", "0x600"].map Utf8.encode) :=
    .base (by decide) (by decide +kernel)
  have hwritten : Written [.output #[0x2D, 0x71], .rom #[0x72], .base 0x600]
      (["-o", "-q", "r", "--base", "0x600"].map Utf8.encode) :=
    .cons houtput (.cons hrom (.cons hbase .nil))
  have hwritten' : Written [.base 0x600, .rom #[0x72], .output #[0x2D, 0x71]]
      (["--base", "0x600", "r", "-o", "-q"].map Utf8.encode) :=
    .cons hbase (.cons hrom (.cons houtput .nil))
  obtain ⟨hrun, -, -, horder⟩ :=
    read_follows_grammar (["-o", "-q", "r", "--base", "0x600"].map Utf8.encode)
  constructor
  · refine (hrun _ _).mpr ⟨_, hwritten, by decide, ?_⟩
    exact ⟨rfl, rfl, rfl, rfl, by decide, by decide⟩
  · exact horder _ _ _ hwritten hwritten' (by decide) (by decide) (by decide) (by decide)

end Chip8.Command
