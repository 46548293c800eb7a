/-
Command lines as they are written, and what they are read as. A command line
is a list of items, each a file or an option in one of its spellings, with the
files behind a double dash as the last part (`CommandLine`). An item cannot be
written that the program would not take, and options that are taken once
stand once in it.

What one item does to the arguments taken so far is `Arguments.take`, and
reading an item that is written takes it (`command_item`). So command lines
are read as what they say (`ofArguments_line`). Reading undone item by item
(`command_inv`) gives that nothing else is read: what the program takes is a
command line (`ofArguments_iff`).
-/
import FrontEnd.CommandLine.Arguments
import Mathlib.Data.List.TakeDrop
import Mathlib.Data.List.TakeWhile

namespace FrontEnd

open Arguments

namespace CommandLine

-- ============================================================= the spellings

/-- The value of an option: behind an equals sign, or as the next argument,
where it must not look like an option. -/
structure OptionValue where
  text : String
  attached : Bool
  apart : attached = false → looksLikeOption text = false

/-- The arguments that make up an option with its value. -/
def OptionValue.write (name : String) (v : OptionValue) : List String :=
  if v.attached then ["--" ++ name ++ "=" ++ v.text]
  else ["--" ++ name, v.text]

/-- The options that are taken once. -/
inductive Single where
  | charset
  | config
  | noRecovery
  | tokens
  | tree
deriving DecidableEq

/-- What stands on a command line. -/
inductive Item where
  | file (path : String) (named : path.isEmpty = false)
      (plain : looksLikeOption path = false)
  | charset (value : OptionValue) (chosen : Charset)
      (known : Charset.ofName? value.text = some chosen)
  | config (value : OptionValue) (named : value.text.isEmpty = false)
  | noRecovery
  | tokens
  | tree
  | verbose
  /-- One letter for each step of verbosity, behind one dash. -/
  | letters (more : Nat)

namespace Item

/-- The arguments of an item. -/
def write : Item → List String
  | file path _ _ => [path]
  | charset value _ _ => value.write "charset"
  | config value _ => value.write "config"
  | noRecovery => ["--no-error-recovery"]
  | tokens => ["--tokens"]
  | tree => ["--ast"]
  | verbose => ["--verbose"]
  | letters more => ["-" ++ String.ofList (List.replicate (more + 1) 'v')]

def single? : Item → Option Single
  | charset .. => some .charset
  | config .. => some .config
  | noRecovery => some .noRecovery
  | tokens => some .tokens
  | tree => some .tree
  | file .. | verbose | letters _ => none

def file? : Item → Option String
  | file path _ _ => some path
  | _ => none

def charset? : Item → Option Charset
  | charset _ chosen _ => some chosen
  | _ => none

def config? : Item → Option String
  | config value _ => some value.text
  | _ => none

/-- How much an item adds to the verbosity. -/
def verbosity : Item → Nat
  | verbose => 1
  | letters more => more + 1
  | _ => 0

theorem write_ne_nil (item : Item) : item.write ≠ [] := by
  have hvalue (name : String) (v : OptionValue) : v.write name ≠ [] := by
    unfold OptionValue.write
    split <;> simp
  cases item with
  | charset value | config value => exact hvalue _ value
  | file | noRecovery | tokens | tree | verbose | letters => simp [write]

end Item

end CommandLine

open CommandLine

/-- A command line: some items, and perhaps files behind a double dash. -/
structure CommandLine where
  items : List Item
  trailing : Option (List String)
  single : (items.filterMap Item.single?).Nodup
  named : ∀ paths ∈ trailing, ∀ path ∈ paths, path.isEmpty = false
  some_file : items.filterMap Item.file? ++ trailing.getD [] ≠ []

namespace CommandLine

variable (line : CommandLine)

def arguments : List String :=
  line.items.flatMap Item.write
    ++ line.trailing.elim [] fun paths => "--" :: paths

/-- The files in the order in which they stand there. -/
def files : List String :=
  line.items.filterMap Item.file? ++ line.trailing.getD []

def charset : Option Charset :=
  line.items.findSome? Item.charset?

def config : Option String :=
  line.items.findSome? Item.config?

/-- How much more than at first is to be told of the run. -/
def verbosity : Nat :=
  line.items.foldr (fun item more => item.verbosity + more) 0

/-- Whether an option stands on the line. -/
def has (option : Single) : Bool :=
  line.items.any (·.single? = some option)

/-- What the line asks for. -/
def asked : Arguments :=
  ⟨line.files, line.charset, line.config, line.has .noRecovery,
    line.has .tokens, line.has .tree, line.verbosity⟩

end CommandLine

namespace Arguments

-- ======================================================= what it comes to

/-- Whether an option was taken. -/
def has (a : Arguments) : Single → Bool
  | .charset => a.charset.isSome
  | .config => a.config.isSome
  | .noRecovery => a.noRecovery
  | .tokens => a.tokens
  | .tree => a.tree

/-- The arguments with an item taken. -/
def take (a : Arguments) : Item → Arguments
  | .file path _ _ => { a with files := a.files ++ [path] }
  | .charset _ chosen _ => { a with charset := a.charset.or (some chosen) }
  | .config value _ => { a with config := a.config.or (some value.text) }
  | .noRecovery => { a with noRecovery := true }
  | .tokens => { a with tokens := true }
  | .tree => { a with tree := true }
  | .verbose => { a with verbosity := a.verbosity + 1 }
  | .letters more => { a with verbosity := a.verbosity + (more + 1) }

theorem has_take (a : Arguments) (item : Item) (option : Single) :
    (a.take item).has option
      = (a.has option || decide (item.single? = some option)) := by
  cases option <;> cases item <;> simp [has, take, Item.single?]

theorem files_take (a : Arguments) (item : Item) :
    (a.take item).files = a.files ++ item.file?.toList := by
  cases item <;> simp [take, Item.file?]

variable {a b : Arguments} {rest : List String}

-- ============================================================ one argument

/-- What comes of an argument, if it is taken, and of those behind it. -/
def Step.andThen (step : Step) (rest : List String) : Command :=
  match step with
  | .next a => a.command rest
  | .settle c => c

@[simp] theorem Step.andThen_next :
    (Step.next a).andThen rest = a.command rest := rfl

@[simp] theorem Step.andThen_settle {c : Command} :
    (Step.settle c).andThen rest = c := rfl

theorem command_file {path : String} (h : looksLikeOption path = false) :
    a.command (path :: rest) = (a.addFile path).andThen rest := by
  unfold looksLikeOption at h
  rw [command]
  split
  case h_4 => rfl
  all_goals
    rename_i hpath
    rw [hpath] at h
    cases h

theorem command_long {argument : String} {text : List Char}
    (h : argument.toList = '-' :: '-' :: text) (hsome : text ≠ []) :
    a.command (argument :: rest)
      = match nameValue text with
        | (name, none) =>
          if takesValue name then
            match rest with
            | [] => .usageError
            | value :: rest =>
              if looksLikeOption value then .usageError
              else (a.option name value).andThen rest
          else (a.flag name).andThen rest
        | (name, some value) => (a.option name value).andThen rest := by
  obtain ⟨c, text, rfl⟩ := List.exists_cons_of_ne_nil hsome
  rw [command, h]
  rfl

theorem command_letters {argument : String} {c : Char} {cs : List Char}
    (h : argument.toList = '-' :: c :: cs) (hc : c ≠ '-') :
    a.command (argument :: rest) = (a.letters (c :: cs)).andThen rest := by
  rw [command, h]
  split
  · rename_i hdashes
    exact absurd (List.cons.inj (List.cons.inj hdashes).2).1 hc
  · rename_i hdashes
    exact absurd (List.cons.inj (List.cons.inj hdashes).2).1 hc
  · rename_i hdash
    obtain ⟨rfl, rfl⟩ := List.cons.inj (List.cons.inj hdash).2
    rfl
  · rename_i hother
    exact absurd rfl (hother _ _)

-- ========================================================== option names

theorem nameValue_alone {name : List Char} (h : '=' ∉ name) :
    nameValue name = (String.ofList name, none) := by
  have hname : ∀ c ∈ name, (c != '=') = true := fun c hc =>
    bne_iff_ne.2 fun heq => h (heq ▸ hc)
  simp [nameValue, List.span_eq_takeWhile_dropWhile,
    List.takeWhile_eq_self_iff.2 hname, List.dropWhile_eq_nil_iff.2 hname]

theorem nameValue_attached {name : List Char} (value : List Char)
    (h : '=' ∉ name) : nameValue (name ++ '=' :: value)
      = (String.ofList name, some (String.ofList value)) := by
  have hname : ∀ c ∈ name, (c != '=') = true := fun c hc =>
    bne_iff_ne.2 fun heq => h (heq ▸ hc)
  simp [nameValue, List.span_eq_takeWhile_dropWhile,
    List.takeWhile_append_of_pos hname, List.dropWhile_append_of_pos hname]

/-- Name and value make up the text again. -/
theorem nameValue_eq (text : List Char) :
    text = match nameValue text with
      | (name, none) => name.toList
      | (name, some value) => name.toList ++ '=' :: value.toList := by
  have htext := List.takeWhile_append_dropWhile (p := (· != '=')) (l := text)
  have hstop := List.dropWhile_get_zero_not (· != '=') text
  rw [nameValue, List.span_eq_takeWhile_dropWhile]
  generalize text.takeWhile (· != '=') = name at htext
  generalize text.dropWhile (· != '=') = behind at htext hstop
  cases behind with
  | nil => simpa using htext.symm
  | cons c value =>
    obtain rfl : c = '=' := by simpa using hstop
    simpa using htext.symm

-- ================================================================ one item

/-- An option with a value, in each of its spellings. -/
theorem command_value (v : OptionValue) {name : String}
    (hname : takesValue name = true) :
    a.command (v.write name ++ rest)
      = (a.option name v.text).andThen rest := by
  have hplain : '=' ∉ name.toList ∧ name.toList ≠ [] := by
    simp only [takesValue, Bool.or_eq_true, beq_iff_eq] at hname
    rcases hname with rfl | rfl <;> decide
  unfold OptionValue.write
  split
  · have hargument : ("--" ++ name ++ "=" ++ v.text).toList
        = '-' :: '-' :: (name.toList ++ '=' :: v.text.toList) := by
      simp
    rw [List.singleton_append, command_long hargument (by simp),
      nameValue_attached _ hplain.1]
    simp
  · rename_i hattached
    have hargument : ("--" ++ name).toList = '-' :: '-' :: name.toList := by
      simp
    have happart := v.apart (by simpa using hattached)
    rw [List.cons_append, List.singleton_append,
      command_long hargument hplain.2, nameValue_alone hplain.1]
    simp [hname, happart]

/-- An option without a value. -/
theorem command_flag {argument : String} (name : String)
    (h : argument.toList = '-' :: '-' :: name.toList)
    (hname : takesValue name = false) (hplain : '=' ∉ name.toList)
    (hsome : name.toList ≠ []) :
    a.command (argument :: rest) = (a.flag name).andThen rest := by
  rw [command_long h hsome, nameValue_alone hplain]
  simp [hname]

theorem letters_verbose (a : Arguments) (count : Nat) :
    a.letters (List.replicate count 'v')
      = .next { a with verbosity := a.verbosity + count } := by
  induction count generalizing a with
  | zero => rfl
  | succ count ih =>
    rw [List.replicate_succ, letters, if_pos (beq_self_eq_true _), ih]
    simp [Nat.add_comm, Nat.add_left_comm]

/-- Whether an item can be taken: an option that is taken once was not taken
yet. -/
def Allows (a : Arguments) (item : Item) : Prop :=
  ∀ option, item.single? = some option → a.has option = false

/-- An item that is written is taken. -/
theorem command_item {item : Item} (h : a.Allows item) :
    a.command (item.write ++ rest) = (a.take item).command rest := by
  cases item with
  | file path named plain =>
    rw [Item.write, List.singleton_append, command_file plain, addFile, named]
    simp [take]
  | charset value chosen known =>
    have hfree : a.charset = none := by simpa [has] using h .charset rfl
    rw [Item.write, command_value value rfl, option]
    simp [take, hfree, known]
  | config value named =>
    have hfree : a.config = none := by simpa [has] using h .config rfl
    rw [Item.write, command_value value rfl, option]
    simp [take, hfree, named]
  | noRecovery =>
    have hfree : a.noRecovery = false := h .noRecovery rfl
    rw [Item.write, List.singleton_append, command_flag "no-error-recovery"
      (by decide) rfl (by decide) (by decide), flag]
    simp [take, hfree]
  | tokens =>
    have hfree : a.tokens = false := h .tokens rfl
    rw [Item.write, List.singleton_append, command_flag "tokens"
      (by decide) rfl (by decide) (by decide), flag]
    simp [take, hfree]
  | tree =>
    have hfree : a.tree = false := h .tree rfl
    rw [Item.write, List.singleton_append, command_flag "ast"
      (by decide) rfl (by decide) (by decide), flag]
    simp [take, hfree]
  | verbose =>
    rw [Item.write, List.singleton_append, command_flag "verbose"
      (by decide) rfl (by decide) (by decide), flag]
    simp [take]
  | letters more =>
    have hletters : ("-" ++ String.ofList (List.replicate (more + 1) 'v')).toList
        = '-' :: 'v' :: List.replicate more 'v' := by
      simp [List.replicate_succ]
    rw [Item.write, List.singleton_append,
      command_letters hletters (by decide), ← List.replicate_succ,
      letters_verbose]
    simp [take]

-- ============================================================== many items

/-- Whether items can be taken: no option that is taken once stands twice
among them or was taken yet. -/
def Fits (a : Arguments) (items : List Item) : Prop :=
  (items.filterMap Item.single?).Nodup
    ∧ ∀ option ∈ items.filterMap Item.single?, a.has option = false

theorem fits_cons {item : Item} {items : List Item} :
    a.Fits (item :: items) ↔ a.Allows item ∧ (a.take item).Fits items := by
  unfold Fits Allows
  cases hitem : item.single? with
  | none => simp [List.filterMap_cons_none hitem, has_take, hitem]
  | some option =>
    rw [List.filterMap_cons_some hitem, List.nodup_cons, List.forall_mem_cons]
    simp only [has_take, hitem, Option.some.injEq, Bool.or_eq_false_iff,
      decide_eq_false_iff_not]
    constructor
    · rintro ⟨⟨hnew, honce⟩, hfree, hothers⟩
      refine ⟨by rintro _ rfl; exact hfree, honce, fun other hother =>
        ⟨hothers other hother, ?_⟩⟩
      rintro rfl
      exact hnew hother
    · rintro ⟨hfree, honce, hothers⟩
      exact ⟨⟨fun hnew => (hothers option hnew).2 rfl, honce⟩,
        hfree option rfl, fun other hother => (hothers other hother).1⟩

theorem command_items {items : List Item} (h : a.Fits items) :
    a.command (items.flatMap Item.write ++ rest)
      = (items.foldl take a).command rest := by
  induction items generalizing a with
  | nil => rfl
  | cons item items ih =>
    obtain ⟨hallows, hfits⟩ := fits_cons.1 h
    rw [List.flatMap_cons, List.append_assoc, command_item hallows, ih hfits,
      List.foldl_cons]

theorem addFiles_eq {paths : List String}
    (h : ∀ path ∈ paths, path.isEmpty = false) :
    a.addFiles paths = .next { a with files := a.files ++ paths } := by
  induction paths generalizing a with
  | nil => simp [addFiles]
  | cons path paths ih =>
    rw [List.forall_mem_cons] at h
    simp [addFiles, addFile, h.1, ih h.2]

/-- Behind a double dash everything is a file. -/
theorem command_trailing {paths : List String}
    (h : ∀ path ∈ paths, path.isEmpty = false) :
    a.command ("--" :: paths)
      = if (a.files ++ paths).isEmpty then .usageError
        else .analyze { a with files := a.files ++ paths } := by
  rw [command, show "--".toList = ['-', '-'] by decide]
  simp only [addFiles_eq h]

theorem foldl_take (a : Arguments) (items : List Item) :
    items.foldl take a =
      { files := a.files ++ items.filterMap Item.file?
        charset := a.charset.or (items.findSome? Item.charset?)
        config := a.config.or (items.findSome? Item.config?)
        noRecovery := a.noRecovery
          || items.any (·.single? = some .noRecovery)
        tokens := a.tokens || items.any (·.single? = some .tokens)
        tree := a.tree || items.any (·.single? = some .tree)
        verbosity := a.verbosity
          + items.foldr (fun item more => item.verbosity + more) 0 } := by
  induction items generalizing a with
  | nil => simp
  | cons item items ih =>
    rw [List.foldl_cons, ih]
    cases item <;> simp [take, List.filterMap_cons, List.findSome?_cons,
      Item.file?, Item.charset?, Item.config?, Item.single?, Item.verbosity,
      Nat.add_assoc]

-- =========================================================== nothing else

theorem allows_of_has {item : Item} {option : Single}
    (hitem : item.single? = some option) (h : a.has option = false) :
    a.Allows item := by
  intro option' hitem'
  obtain rfl := Option.some.inj (hitem.symm.trans hitem')
  exact h

/-- An option that is taken once and was taken. -/
private theorem once_inv {item : Item} {option : Single} {taken : Arguments}
    (hitem : item.single? = some option) (htaken : a.take item = taken)
    (h : (if a.has option then Step.settle .usageError
      else .next taken).andThen rest = .analyze b) :
    a.Allows item ∧ (a.take item).command rest = .analyze b := by
  split at h
  · cases h
  · rename_i hfree
    exact ⟨allows_of_has hitem (by simpa using hfree), htaken ▸ h⟩

/-- What is taken of an option without a value is an item. -/
theorem flag_inv {name : String}
    (h : (a.flag name).andThen rest = .analyze b) :
    ∃ item : Item, item.write = ["--" ++ name] ∧ a.Allows item
      ∧ (a.take item).command rest = .analyze b := by
  unfold flag at h
  split at h
  case isTrue hname =>
    obtain rfl := beq_iff_eq.1 hname
    exact ⟨.noRecovery, rfl, once_inv rfl (by simp [take]) h⟩
  split at h
  case isTrue hname =>
    obtain rfl := beq_iff_eq.1 hname
    exact ⟨.tokens, rfl, once_inv rfl (by simp [take]) h⟩
  split at h
  case isTrue hname =>
    obtain rfl := beq_iff_eq.1 hname
    exact ⟨.tree, rfl, once_inv rfl (by simp [take]) h⟩
  split at h
  case isTrue hname =>
    obtain rfl := beq_iff_eq.1 hname
    exact ⟨.verbose, rfl, nofun, by simpa [take] using h⟩
  split at h
  · cases h
  · split at h <;> cases h

/-- What is taken of an option with a value is an item. -/
theorem option_inv {name : String} (v : OptionValue)
    (h : (a.option name v.text).andThen rest = .analyze b) :
    ∃ item : Item, item.write = v.write name ∧ a.Allows item
      ∧ (a.take item).command rest = .analyze b := by
  unfold option at h
  split at h
  case isTrue hname =>
    obtain rfl := beq_iff_eq.1 hname
    split at h
    · rename_i chosen hfree hknown
      exact ⟨.charset v chosen hknown, rfl,
        allows_of_has rfl (by simp [has, hfree]), by simpa [take, hfree] using h⟩
    · cases h
  split at h
  case isTrue hname =>
    obtain rfl := beq_iff_eq.1 hname
    split at h
    · cases h
    · rename_i hgiven
      simp only [Bool.or_eq_true, not_or, Bool.not_eq_true,
        Option.isSome_eq_false_iff, Option.isNone_iff_eq_none] at hgiven
      obtain ⟨hfree, hnamed⟩ := hgiven
      exact ⟨.config v hnamed, rfl, allows_of_has rfl (by simp [has, hfree]),
        by simpa [take, hfree] using h⟩
  · cases h

/-- What is taken of letters are steps of verbosity. -/
theorem letters_inv {cs : List Char}
    (h : (a.letters cs).andThen rest = .analyze b) :
    cs = List.replicate cs.length 'v' := by
  induction cs generalizing a with
  | nil => rfl
  | cons c cs ih =>
    rw [letters] at h
    split at h
    · rename_i hc
      obtain rfl := beq_iff_eq.1 hc
      rw [List.length_cons, List.replicate_succ, ← ih h]
    · split at h
      · cases h
      · split at h <;> cases h

theorem addFile_inv {path : String}
    (h : (a.addFile path).andThen rest = .analyze b) :
    path.isEmpty = false := by
  unfold addFile at h
  split at h
  · cases h
  · rename_i hnamed
    simpa using hnamed

theorem addFiles_unnamed {paths : List String}
    (h : ¬∀ path ∈ paths, path.isEmpty = false) :
    a.addFiles paths = .settle .usageError := by
  induction paths generalizing a with
  | nil => exact absurd nofun h
  | cons path paths ih =>
    rw [List.forall_mem_cons, not_and] at h
    rw [addFiles, addFile]
    cases hnamed : path.isEmpty with
    | true => rfl
    | false => exact ih (h hnamed)

/-- Arguments that begin with two dashes and a name. -/
private theorem command_long_inv {argument : String} {text : List Char}
    (hargument : argument.toList = '-' :: '-' :: text) (hsome : text ≠ [])
    (h : a.command (argument :: rest) = .analyze b) :
    ∃ item rest', argument :: rest = item.write ++ rest' ∧ a.Allows item
      ∧ (a.take item).command rest' = .analyze b := by
  have htext := nameValue_eq text
  rw [command_long hargument hsome] at h
  split at h
  case h_1 name hname =>
    rw [hname] at htext
    obtain rfl : argument = "--" ++ name := by
      rw [← String.toList_inj, hargument, htext]
      simp
    split at h
    · split at h
      · cases h
      · rename_i value rest
        split at h
        · cases h
        · rename_i hvalue
          obtain ⟨item, hwrite, hitem⟩ := option_inv
            (v := ⟨value, false, fun _ => by simpa using hvalue⟩) h
          exact ⟨item, rest, by rw [hwrite]; rfl, hitem⟩
    · obtain ⟨item, hwrite, hitem⟩ := flag_inv h
      exact ⟨item, rest, by rw [hwrite]; rfl, hitem⟩
  case h_2 name value hname =>
    rw [hname] at htext
    obtain rfl : argument = "--" ++ name ++ "=" ++ value := by
      rw [← String.toList_inj, hargument, htext]
      simp
    obtain ⟨item, hwrite, hitem⟩ := option_inv (v := ⟨value, true, nofun⟩) h
    exact ⟨item, rest, by rw [hwrite]; rfl, hitem⟩

/-- The first item of arguments that are taken, unless they end. -/
theorem command_inv {args : List String} (h : a.command args = .analyze b) :
    (args = [] ∧ a.files ≠ [] ∧ b = a)
      ∨ (∃ paths, args = "--" :: paths
        ∧ (∀ path ∈ paths, path.isEmpty = false) ∧ a.files ++ paths ≠ []
        ∧ b = { a with files := a.files ++ paths })
      ∨ ∃ item rest, args = item.write ++ rest ∧ a.Allows item
        ∧ (a.take item).command rest = .analyze b := by
  cases args with
  | nil =>
    rw [command] at h
    split at h
    · cases h
    · rename_i hsome
      exact .inl ⟨rfl, by simpa using hsome, (Command.analyze.inj h).symm⟩
  | cons argument rest =>
    right
    cases hplain : looksLikeOption argument with
    | false =>
      rw [command_file hplain] at h
      have hnamed := addFile_inv h
      rw [addFile, hnamed] at h
      exact .inr ⟨.file argument hnamed hplain, rest, rfl, nofun,
        by simpa [take] using h⟩
    | true =>
      obtain ⟨c, cs, hargument⟩ : ∃ c cs, argument.toList = '-' :: c :: cs := by
        unfold looksLikeOption at hplain
        split at hplain
        · exact ⟨_, _, ‹_›⟩
        · cases hplain
      by_cases hc : c = '-'
      · subst hc
        by_cases hcs : cs = []
        · subst hcs
          obtain rfl : argument = "--" := String.toList_inj.1 hargument
          by_cases hnamed : ∀ path ∈ rest, path.isEmpty = false
          · rw [command_trailing hnamed] at h
            split at h
            · cases h
            · rename_i hsome
              exact .inl ⟨rest, rfl, hnamed, by simpa using hsome,
                (Command.analyze.inj h).symm⟩
          · rw [command, hargument] at h
            simp only [addFiles_unnamed hnamed] at h
            cases h
        · exact .inr (command_long_inv hargument hcs h)
      · rw [command_letters hargument hc] at h
        have hletters := letters_inv h
        rw [hletters, letters_verbose] at h
        refine .inr ⟨.letters cs.length, rest, ?_, nofun,
          by simpa [take] using h⟩
        have hwrite : argument = "-" ++ String.ofList
            (List.replicate (cs.length + 1) 'v') := by
          rw [← String.toList_inj, hargument, hletters]
          simp
        rw [hwrite]
        rfl

/-- Arguments that are taken are items, with options taken once and some file
among them. -/
theorem command_complete {args : List String}
    (h : a.command args = .analyze b) :
    ∃ (items : List Item) (trailing : Option (List String)),
      args = items.flatMap Item.write
          ++ trailing.elim [] (fun paths => "--" :: paths)
        ∧ a.Fits items
        ∧ (∀ paths ∈ trailing, ∀ path ∈ paths, path.isEmpty = false)
        ∧ a.files ++ (items.filterMap Item.file? ++ trailing.getD []) ≠ [] := by
  induction hlength : args.length using Nat.strong_induction_on
    generalizing a args with
  | h length ih =>
  have hnone : a.Fits [] := ⟨.nil, nofun⟩
  rcases command_inv h with ⟨rfl, hfiles, rfl⟩ |
    ⟨paths, rfl, hnamed, hfiles, rfl⟩ | ⟨item, rest, rfl, hallows, hrest⟩
  · exact ⟨[], none, rfl, hnone, nofun, by simpa using hfiles⟩
  · refine ⟨[], some paths, rfl, hnone, fun paths' hpaths => ?_,
      by simpa using hfiles⟩
    obtain rfl := Option.some.inj hpaths
    exact hnamed
  · have hshorter : rest.length < length := by
      have := List.length_pos_iff.2 item.write_ne_nil
      rw [← hlength, List.length_append]
      omega
    obtain ⟨items, trailing, rfl, hfits, hnamed, hfiles⟩ :=
      ih _ hshorter hrest rfl
    refine ⟨item :: items, trailing, by simp, fits_cons.2 ⟨hallows, hfits⟩,
      hnamed, ?_⟩
    rw [files_take] at hfiles
    cases hfile : item.file? with
    | none => simpa [hfile, List.filterMap_cons_none hfile] using hfiles
    | some path => simp [List.filterMap_cons_some hfile]

end Arguments

namespace CommandLine

/-- A command line is read as what it asks for. -/
theorem ofArguments_line (line : CommandLine) :
    Command.ofArguments line.arguments = .analyze line.asked := by
  have hfits : Arguments.initial.Fits line.items :=
    ⟨line.single, fun option _ => by cases option <;> rfl⟩
  have hfiles := line.some_file
  have hnamed := line.named
  rw [Command.ofArguments, arguments, command_items hfits, foldl_take]
  unfold asked files
  cases htrailing : line.trailing with
  | none =>
    rw [htrailing] at hfiles
    have hsome : line.items.filterMap Item.file? ≠ [] := by simpa using hfiles
    simp [command, initial, hsome, charset, config, has, verbosity]
  | some paths =>
    rw [htrailing] at hfiles hnamed
    rw [Option.elim_some, command_trailing (hnamed paths rfl), if_neg]
    · simp [initial, charset, config, has, verbosity]
    · simpa [initial] using hfiles

/-- The program analyses files for the arguments that are a command line, and
for no others. -/
theorem ofArguments_iff (args : List String) (a : Arguments) :
    Command.ofArguments args = .analyze a
      ↔ ∃ line : CommandLine, line.arguments = args ∧ line.asked = a := by
  constructor
  · intro h
    obtain ⟨items, trailing, rfl, hfits, hnamed, hfiles⟩ :=
      command_complete h
    let line : CommandLine := ⟨items, trailing, hfits.1, hnamed, hfiles⟩
    exact ⟨line, rfl,
      Command.analyze.inj (line.ofArguments_line.symm.trans h)⟩
  · rintro ⟨line, rfl, rfl⟩
    exact line.ofArguments_line

example : ∃ line : CommandLine,
    line.arguments = ["-vv", "a.cc", "--config=c", "--", "--ast"]
      ∧ line.asked = ⟨["a.cc", "--ast"], none, some "c", false, false, false,
        2⟩ :=
  (ofArguments_iff _ _).1 (by rfl)

end CommandLine

end FrontEnd
