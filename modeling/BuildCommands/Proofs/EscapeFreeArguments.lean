import BuildCommands.Proofs.EscapeCodes

/-!
# Arguments without escapes

What the arguments say is put together from pieces of the arguments and from the words of the
interface, and so is what is wrong with them.  Where both are free of escapes, so are the texts of a
request: the paths that a task names, and the message of a refusal.

    Settles free result         = `result` is free, or a fault whose message is
    interface.read arguments    gives texts without escapes, and a fault without      (read_escapeFree)

The reading is followed token by token; what it has said so far carries the induction.
-/

namespace BuildCommands

namespace Arguments

variable {α : Type}

/-! ## Definitions -/

def Flag.EscapeFree (flag : Flag α) : Prop :=
  ∀ spelling ∈ flag.spellings, BuildCommands.EscapeFree spelling

/-- The interface is spelled without escapes. -/
structure Interface.EscapeFree (interface : Interface α) : Prop where
  flags : ∀ flag ∈ interface.flags, flag.EscapeFree
  operand : ∀ name ∈ interface.operand?, BuildCommands.EscapeFree name

def Token.EscapeFree : Token α → Prop
  | .plain argument | .unknown argument => BuildCommands.EscapeFree argument
  | .dashes => True
  | .flag option _ attached? =>
    option.EscapeFree ∧ ∀ text ∈ attached?, BuildCommands.EscapeFree text

def Given.EscapeFree : Given α → Prop
  | .flag _ | .void _ => True
  | .value _ label text => BuildCommands.EscapeFree label ∧ BuildCommands.EscapeFree text
  | .operand text => BuildCommands.EscapeFree text

/-- What an option says, and the option whose value is still to come. -/
structure SaidEscapeFree (said : List (Given α) × Option (Flag α)) : Prop where
  given : ∀ given ∈ said.1, given.EscapeFree
  pending : ∀ flag ∈ said.2, flag.EscapeFree

structure Progress.EscapeFree (p : Progress α) : Prop where
  given : ∀ given ∈ p.given, given.EscapeFree
  extras : ∀ argument ∈ p.extras, BuildCommands.EscapeFree argument

structure Reading.EscapeFree (reading : Reading α) : Prop where
  given : ∀ given ∈ reading.given, given.EscapeFree
  fault : ∀ fault ∈ reading.fault?, BuildCommands.EscapeFree fault.message

/-- The result satisfies the property, or it is a fault whose message is free of escapes. -/
def Settles {β : Type} (free : β → Prop) : Except Fault β → Prop
  | .ok result => free result
  | .error fault => EscapeFree fault.message

theorem Settles.bind {β γ : Type} {free : β → Prop} {free' : γ → Prop} {result : Except Fault β}
    {next : β → Except Fault γ} (h : Settles free result)
    (hnext : ∀ b, free b → Settles free' (next b)) : Settles free' (result >>= next) := by
  cases result with
  | ok b => exact hnext b h
  | error fault => exact h

/-! ## Words of the interface -/

theorem Flag.EscapeFree.label {flag : Flag α} (h : flag.EscapeFree) :
    BuildCommands.EscapeFree flag.label :=
  escapeFree_intercalate (by decide) h

theorem Flag.EscapeFree.withValue {flag : Flag α} (h : flag.EscapeFree) {text : String}
    (htext : BuildCommands.EscapeFree text) : (flag.withValue text).EscapeFree := by
  unfold Flag.withValue
  split
  · trivial
  · exact ⟨h.label, htext⟩

theorem unwantedValue_escapeFree {flag : Flag α} (h : flag.EscapeFree) (value : String) :
    EscapeFree (Fault.unwantedValue flag.label value).message := by
  unfold Fault.message
  simp +decide [h.label]

theorem missingValue_escapeFree {flag : Flag α} (h : flag.EscapeFree) :
    EscapeFree (Fault.missingValue flag.label).message := by
  unfold Fault.message
  simp +decide [h.label]

section

variable {interface : Interface α} (hinterface : interface.EscapeFree)
include hinterface

theorem flag_of_mem_spellings {spelling : String × Flag α} (h : spelling ∈ interface.spellings) :
    spelling.2.EscapeFree ∧ EscapeFree spelling.1 := by
  obtain ⟨flag, hflag, h⟩ := List.mem_flatMap.mp h
  obtain ⟨s, hs, rfl⟩ := List.mem_map.mp h
  exact ⟨hinterface.flags flag hflag, hinterface.flags flag hflag s hs⟩

theorem flag_of_find? {spelling : String} {flag : Flag α}
    (h : interface.find? spelling = some flag) : flag.EscapeFree := by
  obtain ⟨found, hfound, rfl⟩ := Option.map_eq_some_iff.mp h
  exact (flag_of_mem_spellings hinterface (List.mem_of_find?_eq_some hfound)).1

end

/-! ## Progress -/

theorem Progress.EscapeFree.say {p : Progress α} (h : p.EscapeFree) {given : List (Given α)}
    (hgiven : ∀ g ∈ given, g.EscapeFree) : (p.say given).EscapeFree where
  given := fun g hg => (List.mem_append.mp hg).elim
    (fun hg => hgiven g (List.mem_reverse.mp hg)) (h.given g)
  extras := h.extras

theorem Progress.EscapeFree.takeOperand {p : Progress α} (h : p.EscapeFree) {text : String}
    (htext : BuildCommands.EscapeFree text) : (p.takeOperand text).EscapeFree where
  given := List.forall_mem_cons.mpr ⟨htext, h.given⟩
  extras := h.extras

theorem Progress.EscapeFree.leave {p : Progress α} (h : p.EscapeFree) {argument : String}
    (hargument : BuildCommands.EscapeFree argument) : (p.leave argument).EscapeFree where
  given := h.given
  extras := List.forall_mem_cons.mpr ⟨hargument, h.extras⟩

theorem Progress.EscapeFree.close {p : Progress α} (h : p.EscapeFree) {fault? : Option Fault}
    (hfault : ∀ fault ∈ fault?, BuildCommands.EscapeFree fault.message) :
    (p.close fault?).EscapeFree where
  given := fun g hg => h.given g (List.mem_reverse.mp hg)
  fault := hfault

/-! ## Tokens -/

theorem splitEquals_escapeFree {argument : String} (h : EscapeFree argument) :
    EscapeFree (splitEquals argument).1 ∧
      ∀ value ∈ (splitEquals argument).2, EscapeFree value := by
  unfold splitEquals
  simp only
  split
  · exact ⟨h, nofun⟩
  · next value hvalue =>
    refine ⟨escapeFree_ofList.mpr fun hmem => h (List.takeWhile_subset _ hmem), ?_⟩
    rintro _ ⟨⟩
    refine escapeFree_ofList.mpr fun hmem => h (List.dropWhile_subset (· != '=') ?_)
    rw [hvalue]
    exact List.mem_cons_of_mem _ hmem

section

variable {interface : Interface α} (hinterface : interface.EscapeFree)
include hinterface

theorem readings_escapeFree {argument : String} (h : EscapeFree argument) :
    ∀ reading ∈ interface.readings argument, reading.1.EscapeFree ∧ EscapeFree reading.2.1 ∧
      ∀ value ∈ reading.2.2, EscapeFree value := by
  intro reading hreading
  unfold Interface.readings at hreading
  split at hreading
  · obtain ⟨s, hs, rfl⟩ := List.mem_map.mp hreading
    obtain ⟨hflag, hspelling⟩ := flag_of_mem_spellings hinterface (List.mem_filter.mp hs).1
    exact ⟨hflag, hspelling, (splitEquals_escapeFree h).2⟩
  · next letter rest hargument =>
    obtain ⟨s, hs, hread⟩ := List.mem_filterMap.mp hreading
    obtain ⟨hflag, hspelling⟩ := flag_of_mem_spellings hinterface hs
    split at hread
    · cases hread
      refine ⟨hflag, hspelling, ?_⟩
      rintro _ ⟨⟩
      refine escapeFree_ofList.mpr fun hmem => h ?_
      rw [hargument]
      exact List.mem_cons_of_mem _ (List.mem_cons_of_mem _ hmem)
    split at hread
    · cases hread
      exact ⟨hflag, hspelling, nofun⟩
    · cases hread
  · cases hreading

theorem settles_guess {argument : String} (h : EscapeFree argument) :
    Settles Token.EscapeFree (interface.guess argument) := by
  have hreadings := readings_escapeFree hinterface h
  unfold Interface.guess
  split
  · next flag spelling value? heq =>
    rw [heq] at hreadings
    obtain ⟨hflag, -, hvalue⟩ := hreadings _ (List.mem_singleton_self _)
    exact ⟨hflag, hvalue⟩
  · split
    · exact h
    · exact h
  · have hspellings : EscapeFree
        (", ".intercalate ((interface.readings argument).map (·.2.1))) := by
      refine escapeFree_intercalate (by decide) fun text htext => ?_
      obtain ⟨reading, hreading, rfl⟩ := List.mem_map.mp htext
      exact (hreadings reading hreading).2.1
    show EscapeFree (Fault.ambiguous argument _).message
    unfold Fault.message
    simp +decide [h, hspellings]

theorem settles_token {argument : String} (h : EscapeFree argument) :
    Settles Token.EscapeFree (interface.token argument) := by
  unfold Interface.token
  split
  · exact h
  split
  · next flag hfind => exact ⟨flag_of_find? hinterface hfind, nofun⟩
  split
  · exact h
  have hparts := splitEquals_escapeFree h
  split
  · next start value heq =>
    rw [heq] at hparts
    split
    · next flag hfind =>
      refine ⟨flag_of_find? hinterface hfind, ?_⟩
      rintro _ ⟨⟩
      exact hparts.2 value rfl
    · exact settles_guess hinterface h
  · exact settles_guess hinterface h

theorem settles_tokensOf {arguments : List String} (h : ∀ a ∈ arguments, EscapeFree a) :
    Settles (∀ token ∈ ·, token.EscapeFree) (interface.tokensOf arguments) := by
  induction arguments with
  | nil => exact nofun
  | cons argument arguments ih =>
    obtain ⟨hargument, harguments⟩ := List.forall_mem_cons.mp h
    unfold Interface.tokensOf
    split
    · refine List.forall_mem_cons.mpr ⟨trivial, fun token htoken => ?_⟩
      obtain ⟨a, ha, rfl⟩ := List.mem_map.mp htoken
      exact harguments a ha
    · refine (settles_token hinterface hargument).bind fun token htoken => ?_
      exact (ih harguments).bind fun tokens htokens => List.forall_mem_cons.mpr ⟨htoken, htokens⟩

/-! ## Options -/

theorem settles_readLetters (letters : List Char) : ∀ {flag : Flag α}, flag.EscapeFree →
    '\x1b' ∉ letters →
    Settles SaidEscapeFree (interface.readLetters flag letters) := by
  induction letters with
  | nil =>
    intro flag hflag _
    unfold Interface.readLetters
    split
    · refine ⟨nofun, ?_⟩
      rintro _ ⟨⟩
      exact hflag
    · exact ⟨List.forall_mem_singleton.mpr trivial, nofun⟩
  | cons letter letters ih =>
    intro flag hflag hletters
    have hrest : '\x1b' ∉ letters := mt (List.mem_cons_of_mem _) hletters
    unfold Interface.readLetters
    split
    · exact ⟨List.forall_mem_singleton.mpr (hflag.withValue (escapeFree_ofList.mpr hletters)),
        nofun⟩
    split
    · exact unwantedValue_escapeFree hflag _
    · next next hfind =>
      refine (ih (flag_of_find? hinterface hfind) hrest).bind fun said hsaid => ?_
      exact ⟨List.forall_mem_cons.mpr ⟨trivial, hsaid.given⟩, hsaid.pending⟩

theorem settles_readFlag {flag : Flag α} (hflag : flag.EscapeFree) (spelling : String)
    {attached? : Option String} (h : ∀ text ∈ attached?, EscapeFree text) :
    Settles SaidEscapeFree (interface.readFlag flag spelling attached?) := by
  cases attached? with
  | none => exact settles_readLetters hinterface [] hflag (List.not_mem_nil)
  | some text =>
    have htext : EscapeFree text := h text rfl
    simp only [Interface.readFlag]
    split
    · exact ⟨List.forall_mem_singleton.mpr (hflag.withValue htext), nofun⟩
    split
    · exact unwantedValue_escapeFree hflag _
    · exact settles_readLetters hinterface text.toList hflag htext

/-! ## Readings -/

theorem finalFault?_escapeFree {p : Progress α} (h : p.EscapeFree) :
    ∀ fault ∈ interface.finalFault? p, EscapeFree fault.message := by
  have hunknown : EscapeFree (Fault.unknown p.extras.reverse).message := by
    have hextras : EscapeFree (" ".intercalate p.extras.reverse) :=
      escapeFree_intercalate (by decide) fun a ha => h.extras a (List.mem_reverse.mp ha)
    unfold Fault.message
    simp +decide [hextras]
  intro fault hfault
  unfold Interface.finalFault? at hfault
  split at hfault
  · next name hname =>
    split at hfault
    · cases hfault
      have hoperand : EscapeFree name := hinterface.operand name hname
      unfold Fault.message
      simp +decide [hoperand]
    split at hfault
    · cases hfault
    · cases hfault
      exact hunknown
  · split at hfault
    · cases hfault
    · cases hfault
      exact hunknown

theorem readTokens_escapeFree (p : Progress α) (tokens : List (Token α)) (hp : p.EscapeFree)
    (h : ∀ token ∈ tokens, token.EscapeFree) : (interface.readTokens p tokens).EscapeFree := by
  -- what an option says is free of escapes, whether or not its value is still to come
  have hread : ∀ {flag : Flag α} {spelling : String} {attached? : Option String}
      {rest : List (Token α)},
      (∀ token ∈ Token.flag flag spelling attached? :: rest, token.EscapeFree) →
        Settles SaidEscapeFree (interface.readFlag flag spelling attached?) := by
    intro flag spelling attached? rest h
    obtain ⟨hflag, hattached⟩ := (List.forall_mem_cons.mp h).1
    exact settles_readFlag hinterface hflag spelling hattached
  fun_induction Interface.readTokens interface p tokens with
  | case1 p => exact hp.close (finalFault?_escapeFree hinterface hp)
  | case2 p text rest _ ih =>
    obtain ⟨htext, hrest⟩ := List.forall_mem_cons.mp h
    exact ih (hp.takeOperand htext) (List.forall_mem_cons.mp hrest).2
  | case3 p text rest _ ih =>
    obtain ⟨htext, hrest⟩ := List.forall_mem_cons.mp h
    exact ih (hp.leave htext) hrest
  | case4 p text rest _ _ ih =>
    obtain ⟨htext, hrest⟩ := List.forall_mem_cons.mp h
    exact ih (hp.takeOperand htext) hrest
  | case5 p text rest _ _ ih =>
    obtain ⟨htext, hrest⟩ := List.forall_mem_cons.mp h
    exact ih (hp.leave htext) hrest
  | case6 p text rest _ ih =>
    obtain ⟨htext, hrest⟩ := List.forall_mem_cons.mp (List.forall_mem_cons.mp h).2
    exact ih (hp.takeOperand htext) hrest
  | case7 p text rest _ ih =>
    exact ih (hp.leave (by decide)) (List.forall_mem_cons.mp h).2
  | case8 p rest _ ih =>
    exact ih (hp.leave (by decide)) (List.forall_mem_cons.mp h).2
  | case9 p argument rest ih =>
    obtain ⟨hargument, hrest⟩ := List.forall_mem_cons.mp h
    exact ih (hp.leave hargument) hrest
  | case10 p flag spelling attached? rest fault heq =>
    have hfault := hread h
    rw [heq] at hfault
    refine hp.close ?_
    rintro _ ⟨⟩
    exact hfault
  | case11 p flag spelling attached? rest given heq ih =>
    have hsaid := hread h
    rw [heq] at hsaid
    exact ih (hp.say hsaid.given) (List.forall_mem_cons.mp h).2
  | case12 p flag spelling attached? given pending heq text rest ih =>
    have hsaid := hread h
    rw [heq] at hsaid
    obtain ⟨htext, hrest⟩ := List.forall_mem_cons.mp (List.forall_mem_cons.mp h).2
    refine ih (hp.say fun g hg => ?_) hrest
    rcases List.mem_append.mp hg with hg | hg
    · exact hsaid.given g hg
    · cases List.mem_singleton.mp hg
      exact (hsaid.pending pending rfl).withValue htext
  | case13 p flag spelling attached? rest given pending heq _ =>
    have hsaid := hread h
    rw [heq] at hsaid
    refine hp.close ?_
    rintro _ ⟨⟩
    exact missingValue_escapeFree (hsaid.pending pending rfl)

/-- What the arguments say, and what is wrong with them, is free of escapes if they are. -/
theorem read_escapeFree {arguments : List String} (h : ∀ a ∈ arguments, EscapeFree a) :
    (interface.read arguments).EscapeFree := by
  have htokens := settles_tokensOf hinterface h
  unfold Interface.read
  split
  · next fault heq =>
    rw [heq] at htokens
    refine ⟨nofun, ?_⟩
    rintro _ ⟨⟩
    exact htokens
  · next tokens heq =>
    rw [heq] at htokens
    exact readTokens_escapeFree hinterface _ tokens ⟨nofun, nofun⟩ htokens

end

end Arguments

/-! ## Requests -/

theorem programInterface_escapeFree : programInterface.EscapeFree := by
  have hflags : ∀ flag ∈ programInterface.flags, ∀ spelling ∈ flag.spellings,
      EscapeFree spelling := by
    decide
  refine ⟨hflags, ?_⟩
  rintro _ ⟨⟩
  decide

/-- The paths that a task names are free of escapes. -/
structure Task.EscapeFree (task : Task) : Prop where
  events : BuildCommands.EscapeFree task.events
  directory : ∀ path ∈ task.place.directory?, BuildCommands.EscapeFree path
  compileName : ∀ name ∈ task.place.compileName?, BuildCommands.EscapeFree name
  linkName : ∀ name ∈ task.place.linkName?, BuildCommands.EscapeFree name

/-- The texts of a request are free of escapes. -/
def Request.EscapeFree : Request → Prop
  | .help | .version => True
  | .refused fault => BuildCommands.EscapeFree fault.message
  | .run task _ => task.EscapeFree

theorem Task.EscapeFree.setPlace {task : Task} (h : task.EscapeFree) (part : Setting)
    {text? : Option String} (htext : ∀ text ∈ text?, BuildCommands.EscapeFree text) :
    (task.setPlace part text?).EscapeFree := by
  obtain ⟨hevents, hdirectory, hcompile, hlink⟩ := h
  cases part with
  | outputDirectory => exact ⟨hevents, htext, hcompile, hlink⟩
  | compileName => exact ⟨hevents, hdirectory, htext, hlink⟩
  | linkName => exact ⟨hevents, hdirectory, hcompile, htext⟩
  | _ => exact ⟨hevents, hdirectory, hcompile, hlink⟩

theorem Request.apply_escapeFree (task : Task) (display : Display)
    (fault? : Option Arguments.Fault) (given : List (Arguments.Given Setting))
    (htask : task.EscapeFree) (hfault : ∀ fault ∈ fault?, BuildCommands.EscapeFree fault.message)
    (h : ∀ g ∈ given, g.EscapeFree) : (Request.apply task display fault? given).EscapeFree := by
  fun_induction Request.apply task display fault? given with
  | case1 task display =>
    cases fault? with
    | none => exact htask
    | some fault => exact hfault fault rfl
  | case2 task display text rest ih =>
    obtain ⟨htext, hrest⟩ := List.forall_mem_cons.mp h
    exact ih { htask with events := htext } hrest
  | case3 => trivial
  | case4 => trivial
  | case5 task display rest ih => exact ih htask (List.forall_mem_cons.mp h).2
  | case6 task display rest ih => exact ih htask (List.forall_mem_cons.mp h).2
  | case7 task display rest ih => exact ih htask (List.forall_mem_cons.mp h).2
  | case8 task display purpose rest _ _ _ _ _ ih => exact ih htask (List.forall_mem_cons.mp h).2
  | case9 task display label text rest jobs _ ih =>
    exact ih { htask with } (List.forall_mem_cons.mp h).2
  | case10 task display label text rest _ =>
    have hlabel : BuildCommands.EscapeFree label := (List.forall_mem_cons.mp h).1.1
    show BuildCommands.EscapeFree (Arguments.Fault.notInteger label text).message
    unfold Arguments.Fault.message
    simp +decide [hlabel]
  | case11 task display part label text rest _ ih =>
    obtain ⟨⟨-, htext⟩, hrest⟩ := List.forall_mem_cons.mp h
    refine ih (htask.setPlace part ?_) hrest
    rintro _ ⟨⟩
    exact htext
  | case12 task display rest ih => exact ih { htask with } (List.forall_mem_cons.mp h).2
  | case13 task display part rest _ ih =>
    exact ih (htask.setPlace part nofun) (List.forall_mem_cons.mp h).2

theorem Task.usual_escapeFree : Task.usual.EscapeFree := by
  refine ⟨by decide, ?_, ?_, ?_⟩
  all_goals
    rintro _ ⟨⟩
    decide

/-- The texts that a request takes from the arguments are free of escapes if the arguments are. -/
theorem Request.ofArguments_escapeFree {arguments : List String}
    (h : ∀ a ∈ arguments, BuildCommands.EscapeFree a) :
    (Request.ofArguments arguments).EscapeFree := by
  obtain ⟨hgiven, hfault⟩ := Arguments.read_escapeFree programInterface_escapeFree h
  exact Request.apply_escapeFree _ _ _ _ Task.usual_escapeFree hfault hgiven

end BuildCommands
