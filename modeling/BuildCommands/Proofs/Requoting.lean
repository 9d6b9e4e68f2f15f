import BuildCommands.Invocation
import BuildCommands.Proofs.Parameters

/-!
# The same arguments in other quotes

A tool does not see how its arguments are quoted.  The rules for options read the tokens as they are
written, so quotes around a whole option make it a plain token, which may then count as a file.
Quotes elsewhere are of no consequence.  Of two tokens with one value, the quotes matter in these
places alone: before the mark of an option or a response file, in a name that has a rule of its own,
and in the two letters of an option that names a source.

    equal values → (equal rules ↔ SameOption)                    (ruleOf_eq_iff)
    equal values → (equal link switches ↔ SameSwitch)            (isLinkSwitch_eq_iff)
    equal values, equal rules at every free token → equal contributions of the visits
                                                                 (map_contribution_visits)
    requoted arguments → equal kind and files                    (parse_requoted)
-/

namespace BuildCommands

/-! ## Definitions -/

/-- The rule that a role stands for: the role without the file that an option names. -/
def Role.rule : Role → Role
  | .attachedSource _ => .attachedSource ""
  | role => role

/-- The rule that a token, as it is written, falls under. -/
def ruleOf (table : OptionTable) (kind : ToolKind) (token : String) : Role :=
  (roleOf table kind token).rule

/-- What a visit adds to the files of a run. -/
structure Contribution where
  /-- The value of a candidate. -/
  candidate? : Option String
  /-- The value of a file that an option names as a source. -/
  source? : Option String
  /-- Every candidate is a source. -/
  allSources : Bool
  deriving DecidableEq, Repr

def Visit.contribution (visit : Visit) : Contribution where
  candidate? := visit.candidate?.map Argument.value
  source? := visit.source?
  allSources := visit.role = .allSources

/-- The name has a rule of its own for the kind. -/
def OptionTable.recognises (table : OptionTable) (kind : ToolKind) (name : String) : Bool :=
  table.names.contains name ||
    kind == .compile && ["Tc", "Tp", "TC", "TP", "link"].contains name

/-- The token is written like an option that names a source file: a mark and two letters. -/
def namesSource (token : String) : Bool :=
  (optionName? token).any fun name =>
    "Tc".toList.isPrefixOf name.toList || "Tp".toList.isPrefixOf name.toList

/-- Two tokens with one value are quoted alike as far as the rules for options go.  The value is that
of a plain argument, or quotes stand before the mark in both tokens, or in neither.  If in neither,
both or neither have quotes where the name has a rule of its own, and to a compiler both or neither
are written like options that name a source. -/
def SameOption (table : OptionTable) (kind : ToolKind) (s t : String) : Prop :=
  isPlain (Argument.value s) = true ∨
    isPlain s = isPlain t ∧ (isPlain s = false →
      (('"' ∈ s.toList ↔ '"' ∈ t.toList) ∨
        (optionName? (Argument.value s)).any (table.recognises kind) = false) ∧
      (kind = .compile → namesSource s = namesSource t))

instance (table : OptionTable) (kind : ToolKind) (s t : String) :
    Decidable (SameOption table kind s t) :=
  inferInstanceAs (Decidable (_ ∨ _))

/-- The token is a quote that is not closed and the name of the link switch. -/
def opensSwitch (token : String) : Bool := token.toList.head? == some '"' && isLinkSwitch token

/-- Two tokens with one value are quoted alike as far as the link switch goes: an open quote stands
before the name of the switch in both or in neither, and both or neither have quotes where the value
is a switch. -/
def SameSwitch (s t : String) : Prop :=
  opensSwitch s = opensSwitch t ∧
    (('"' ∈ s.toList ↔ '"' ∈ t.toList) ∨ isLinkSwitch (Argument.value s) = false)

instance (s t : String) : Decidable (SameSwitch s t) := inferInstanceAs (Decidable (_ ∧ _))

/-- Two lists of tokens are the same arguments in other quotes to a tool of the given kind: their
values are equal, to a compiler they are quoted alike as far as the link switch goes, and those that
are no parameters are quoted alike as far as the options go of the kind that the run is recorded
as. -/
structure Requoted (kind : ToolKind) (tokens tokens' : List String) : Prop where
  values : tokens.map Argument.value = tokens'.map Argument.value
  switches : kind = .compile → ∀ p ∈ tokens.zip tokens', SameSwitch p.1 p.2
  options : ∀ i < tokens.length, ¬IsParameter .compiler (kind.recordedAs tokens) tokens i →
    ∀ p ∈ (tokens.zip tokens')[i]?, SameOption .compiler (kind.recordedAs tokens) p.1 p.2

/-! ## Rules -/

section

variable {table : OptionTable} {kind : ToolKind} {s t : String}

theorem Role.takesNext_rule (role : Role) : role.rule.takesNext = role.takesNext := by
  cases role <;> rfl

theorem Role.rule_eq_linkSwitch_iff {role : Role} : role.rule = .linkSwitch ↔ role = .linkSwitch := by
  cases role <;> simp [Role.rule]

theorem consumes_of_ruleOf_eq (h : ruleOf table kind s = ruleOf table kind t) :
    consumes table kind s = consumes table kind t := by
  unfold ruleOf at h
  rw [← takesNext_roleOf, ← takesNext_roleOf, ← Role.takesNext_rule, h, Role.takesNext_rule]

/-- An option that names a source is written as a mark, two letters and the file. -/
theorem toList_of_attachedSource {file : String}
    (h : roleOf table kind s = .attachedSource file) :
    ∃ mark letter, (mark = '/' ∨ mark = '-') ∧ (letter = 'c' ∨ letter = 'p') ∧
      s.toList = mark :: 'T' :: letter :: file.toList := by
  obtain ⟨-, name, hname, hrole⟩ := (roleOf_eq_iff (by simp) (by simp) (by simp)).mp h
  have hoption : optionName? s = some name := (Option.filter_eq_some_iff.mp hname).1
  obtain ⟨mark, hmark, hs⟩ := optionName?_eq_some_iff.mp hoption
  rw [compilerRole_eq] at hrole
  split_ifs at hrole with _ hprefix
  cases hrole
  rcases hprefix with ⟨cs, hcs⟩ | ⟨cs, hcs⟩
  · exact ⟨mark, 'c', hmark, by simp, by simp [hs, ← hcs]⟩
  · exact ⟨mark, 'p', hmark, by simp, by simp [hs, ← hcs]⟩

/-- The value of such an option ends with the value of its file. -/
theorem value_of_attachedSource {file : String} (h : roleOf table kind s = .attachedSource file) :
    (Argument.value s).toList.drop 3 = (Argument.value file).toList := by
  obtain ⟨mark, letter, hmark, hletter, hs⟩ := toList_of_attachedSource h
  have hmark' : mark ≠ '\\' ∧ mark ≠ '"' := by
    rcases hmark with rfl | rfl <;> decide
  have hletter' : letter ≠ '\\' ∧ letter ≠ '"' := by
    rcases hletter with rfl | rfl <;> decide
  unfold Argument.value
  rw [hs]
  simp [Argument.valueFrom, hmark', hletter']

/-! ## Values and marks -/

/-- A token's first character is its value's, unless it is a backslash or a quote. -/
theorem toList_value_cons {token : String} {c : Char} {rest : List Char}
    (h : token.toList = c :: rest) (hb : c ≠ '\\') (hq : c ≠ '"') :
    (Argument.value token).toList = c :: Argument.valueFrom 0 rest := by
  simp [Argument.value, h, Argument.valueFrom, hb, hq]

theorem exists_mark_of_not_plain (h : isPlain s = false) :
    ∃ c rest, s.toList = c :: rest ∧ (c = '/' ∨ c = '-' ∨ c = '@') := by
  unfold isPlain at h
  cases hs : s.toList with
  | nil => simp [hs] at h
  | cons c rest => exact ⟨c, rest, rfl, by simpa [hs, or_iff_not_imp_left] using h⟩

/-- A mark that no quote stands before is the mark of the value. -/
theorem head?_value_of_not_plain (h : isPlain s = false) :
    (Argument.value s).toList.head? = s.toList.head? := by
  obtain ⟨c, rest, hs, hc⟩ := exists_mark_of_not_plain h
  have hne : c ≠ '\\' ∧ c ≠ '"' := by rcases hc with rfl | rfl | rfl <;> decide
  rw [toList_value_cons hs hne.1 hne.2, hs]
  rfl

/-- A token with the value of a plain argument is plain. -/
theorem isPlain_of_value (h : isPlain (Argument.value s) = true) : isPlain s = true := by
  by_contra hs
  have hhead := head?_value_of_not_plain (eq_false_of_ne_true hs)
  unfold isPlain at h hs
  exact hs (hhead ▸ h)

/-- The quotes of an option stand in its name. -/
theorem quote_mem_name {name : String} (h : optionName? s = some name) (hq : '"' ∈ s.toList) :
    '"' ∈ name.toList := by
  obtain ⟨mark, hmark, hs⟩ := optionName?_eq_some_iff.mp h
  rw [hs, List.mem_cons] at hq
  refine hq.resolve_left ?_
  rcases hmark with rfl | rfl <;> decide

/-- Tokens with one value, and no quotes before the marks, are options together. -/
theorem optionName?_eq_none_congr (hvalue : Argument.value s = Argument.value t)
    (hs : isPlain s = false) (ht : isPlain t = false) :
    optionName? s = none ↔ optionName? t = none := by
  rw [optionName?_eq_none_iff, optionName?_eq_none_iff, ← head?_value_of_not_plain hs, hvalue,
    head?_value_of_not_plain ht]

/-! ## Rules of options -/

theorem Role.rule_eq_candidate_iff {role : Role} : role.rule = .candidate ↔ role = .candidate := by
  cases role <;> simp [Role.rule]

theorem ruleOf_eq_candidate_iff : ruleOf table kind s = .candidate ↔ isPlain s = true :=
  Role.rule_eq_candidate_iff.trans roleOf_eq_candidate_iff

theorem namesSource_of_option {name : String} (h : optionName? s = some name) :
    namesSource s = true ↔ "Tc".toList <+: name.toList ∨ "Tp".toList <+: name.toList := by
  unfold namesSource
  rw [h]
  simp

/-- A name without a rule of its own names a source, or is ignored. -/
theorem ruleOf_of_unrecognised {name : String} (h : optionName? s = some name)
    (hname : table.recognises kind name = false) :
    ruleOf table kind s =
      if kind = .compile ∧ namesSource s = true then .attachedSource "" else .ignored := by
  unfold ruleOf
  rw [roleOf_of_option h]
  simp only [namesSource_of_option h]
  cases kind with
  | link =>
    have hlisted : name ∉ table.names := by simpa [OptionTable.recognises] using hname
    simp [hlisted, Role.rule]
  | compile =>
    obtain ⟨hlisted, hTc, hTp, hTC, hTP, hlink⟩ : name ∉ table.names ∧ name ≠ "Tc" ∧ name ≠ "Tp" ∧
        name ≠ "TC" ∧ name ≠ "TP" ∧ name ≠ "link" := by
      simpa [OptionTable.recognises] using hname
    rw [if_neg hlisted, if_pos rfl, compilerRole_eq, if_neg (not_or.mpr ⟨hTc, hTp⟩),
      if_neg (not_or.mpr ⟨hTC, hTP⟩), if_neg hlink]
    split_ifs <;> simp_all [Role.rule]

/-- A name with a rule of its own neither names a source behind its letters nor is ignored. -/
theorem ruleOf_of_recognised {name : String} (h : optionName? s = some name)
    (hname : table.recognises kind name = true) :
    ruleOf table kind s ≠ .attachedSource "" ∧ ruleOf table kind s ≠ .ignored := by
  unfold ruleOf
  rw [roleOf_of_option h]
  by_cases hlisted : name ∈ table.names
  · simp [hlisted, Role.rule]
  have hown : kind = .compile ∧ name ∈ ["Tc", "Tp", "TC", "TP", "link"] := by
    simpa [OptionTable.recognises, hlisted] using hname
  rw [if_neg hlisted, if_pos hown.1]
  have hmem := hown.2
  simp only [List.mem_cons, List.not_mem_nil, or_false] at hmem
  rcases hmem with rfl | rfl | rfl | rfl | rfl <;> exact ⟨by decide, by decide⟩

/-- Names with a rule of their own have no quotes. -/
theorem recognises_eq_false_of_quoted (htable : ∀ name ∈ table.names, '"' ∉ name.toList)
    {name : String} (h : '"' ∈ name.toList) : table.recognises kind name = false := by
  have hlisted : name ∉ table.names := fun hmem => htable name hmem h
  have hown : name ∉ ["Tc", "Tp", "TC", "TP", "link"] := by
    intro hmem
    have hfree : ∀ own ∈ ["Tc", "Tp", "TC", "TP", "link"], '"' ∉ own.toList := by decide
    exact hfree name hmem h
  simp [OptionTable.recognises, hlisted] at hown ⊢
  tauto

/-- Options without rules of their own fall under one rule exactly if they are written alike as
options that name a source. -/
theorem ruleOf_eq_iff_of_unrecognised {name name' : String} (hs : optionName? s = some name)
    (ht : optionName? t = some name') (hname : table.recognises kind name = false)
    (hname' : table.recognises kind name' = false) :
    ruleOf table kind s = ruleOf table kind t ↔
      (kind = .compile → namesSource s = namesSource t) := by
  rw [ruleOf_of_unrecognised hs hname, ruleOf_of_unrecognised ht hname']
  by_cases hkind : kind = .compile
  · cases namesSource s <;> cases namesSource t <;> simp [hkind]
  · simp [hkind]

theorem SameOption.symm (hvalue : Argument.value s = Argument.value t)
    (h : SameOption table kind s t) : SameOption table kind t s := by
  unfold SameOption at h ⊢
  rw [← hvalue]
  refine h.imp_right fun ⟨hplain, hmore⟩ => ⟨hplain.symm, fun ht => ?_⟩
  obtain ⟨hquotes, hsource⟩ := hmore (hplain.trans ht)
  exact ⟨hquotes.imp_left Iff.symm, fun hkind => (hsource hkind).symm⟩

/-- Quotes in a name that has a rule of its own take the token out of that rule. -/
theorem ruleOf_eq_iff_of_quoted (htable : ∀ name ∈ table.names, '"' ∉ name.toList)
    (hvalue : Argument.value s = Argument.value t) (hs : isPlain s = false)
    (ht : isPlain t = false) {name name' : String} (hname : optionName? s = some name)
    (hname' : optionName? t = some name') (hquoted : '"' ∈ s.toList) (hfree : '"' ∉ t.toList) :
    ruleOf table kind s = ruleOf table kind t ↔ SameOption table kind s t := by
  have ht' : Argument.value t = t := Argument.value_of_not_mem hfree
  have hunknown : table.recognises kind name = false :=
    recognises_eq_false_of_quoted htable (quote_mem_name hname hquoted)
  have hnot : ¬('"' ∈ s.toList ↔ '"' ∈ t.toList) := fun h => hfree (h.mp hquoted)
  have hvalueName : optionName? (Argument.value s) = some name' := by rw [hvalue, ht', hname']
  have hplain : isPlain (Argument.value s) = false := by rw [hvalue, ht', ht]
  unfold SameOption
  rw [hplain, hvalueName, Option.any_some, hs, ht]
  cases hrecognised : table.recognises kind name' with
  | true =>
    refine iff_of_false (fun h => ?_) (by simp [hnot])
    rw [ruleOf_of_unrecognised hname hunknown] at h
    have hown := ruleOf_of_recognised hname' hrecognised
    split_ifs at h
    · exact hown.1 h.symm
    · exact hown.2 h.symm
  | false =>
    rw [ruleOf_eq_iff_of_unrecognised hname hname' hunknown hrecognised]
    simp

/-- Two tokens with one value fall under one rule exactly if they are quoted alike as far as the
rules go. -/
theorem ruleOf_eq_iff (htable : ∀ name ∈ table.names, '"' ∉ name.toList)
    (hvalue : Argument.value s = Argument.value t) :
    ruleOf table kind s = ruleOf table kind t ↔ SameOption table kind s t := by
  by_cases hplain : isPlain (Argument.value s) = true
  · have hs := isPlain_of_value hplain
    have ht := isPlain_of_value (hvalue ▸ hplain)
    exact iff_of_true ((ruleOf_eq_candidate_iff.mpr hs).trans (ruleOf_eq_candidate_iff.mpr ht).symm)
      (Or.inl hplain)
  cases hs : isPlain s with
  | true =>
    rw [ruleOf_eq_candidate_iff.mpr hs, eq_comm, ruleOf_eq_candidate_iff]
    unfold SameOption
    simp [hplain, hs]
  | false =>
  cases ht : isPlain t with
  | true =>
    rw [ruleOf_eq_candidate_iff.mpr ht, ruleOf_eq_candidate_iff]
    unfold SameOption
    simp [hplain, hs, ht]
  | false =>
  -- both tokens show their marks, which are the value's
  have hoption := optionName?_eq_none_congr hvalue hs ht
  cases hname : optionName? s with
  | none =>
    have hname' := hoption.mp hname
    have hvalueName : optionName? (Argument.value s) = none := by
      rw [optionName?_eq_none_iff, head?_value_of_not_plain hs, ← optionName?_eq_none_iff, hname]
    unfold SameOption ruleOf namesSource
    rw [roleOf_of_plain hname, roleOf_of_plain hname', hs, ht, hname, hname', hvalueName]
    simp
  | some name =>
    obtain ⟨name', hname'⟩ : ∃ name', optionName? t = some name' :=
      Option.ne_none_iff_exists'.mp fun h => by rw [hoption.mpr h] at hname; cases hname
    by_cases hqs : '"' ∈ s.toList
    · by_cases hqt : '"' ∈ t.toList
      · rw [ruleOf_eq_iff_of_unrecognised hname hname'
          (recognises_eq_false_of_quoted htable (quote_mem_name hname hqs))
          (recognises_eq_false_of_quoted htable (quote_mem_name hname' hqt))]
        unfold SameOption
        simp [hplain, hs, ht, hqs, hqt]
      · exact ruleOf_eq_iff_of_quoted htable hvalue hs ht hname hname' hqs hqt
    · by_cases hqt : '"' ∈ t.toList
      · have h : ruleOf table kind t = ruleOf table kind s ↔ SameOption table kind t s :=
          ruleOf_eq_iff_of_quoted htable hvalue.symm ht hs hname' hname hqt hqs
        rw [eq_comm, h]
        exact ⟨SameOption.symm hvalue.symm, SameOption.symm hvalue⟩
      · -- without quotes both are their value
        have hst : s = t := by
          rw [← Argument.value_of_not_mem hqs, hvalue, Argument.value_of_not_mem hqt]
        subst hst
        exact iff_of_true rfl (Or.inr ⟨rfl, fun _ => ⟨Or.inl Iff.rfl, fun _ => rfl⟩⟩)

end

/-! ## Link switches -/

theorem quote_mem_lowerFrom (cs : List Char) : ∀ before : List Char,
    '"' ∈ cs → '"' ∈ Text.lowerFrom before cs := by
  induction cs with
  | nil =>
    intro before h
    cases h
  | cons c rest ih =>
    intro before h
    rcases List.mem_cons.mp h with rfl | hrest
    · exact List.mem_append_left _ (List.mem_singleton.mpr rfl)
    · exact List.mem_append_right _ (ih _ hrest)

/-- How long a text is in lower case does not depend on what stands before it. -/
theorem length_lowerFrom (cs : List Char) : ∀ before before' : List Char,
    (Text.lowerFrom before cs).length = (Text.lowerFrom before' cs).length := by
  induction cs with
  | nil => exact fun _ _ => rfl
  | cons c rest ih =>
    intro before before'
    unfold Text.lowerFrom
    rw [List.length_append, List.length_append, ih (c :: before) (c :: before')]
    split <;> rfl

theorem lowerChar_ne_nil (c : Char) : Text.lowerChar c ≠ [] := by
  unfold Text.lowerChar
  dsimp only
  split
  · exact List.cons_ne_nil _ _
  split
  · exact List.cons_ne_nil _ _
  split <;> exact List.cons_ne_nil _ _

/-- A text is longer in lower case than without its first character. -/
theorem length_lowerCase_lt (c : Char) (rest : List Char) :
    (Text.lowerCase rest).length < (Text.lowerCase (c :: rest)).length := by
  unfold Text.lowerCase
  rw [Text.lowerFrom, List.length_append, length_lowerFrom rest [] [c]]
  have hfirst : 0 < (if c.toNat = 0x3a3 then
      [Char.ofNat (if Text.startsCased [] && !Text.startsCased rest then 0x3c2 else 0x3c3)]
    else Text.lowerChar c).length := by
    split
    · exact Nat.one_pos
    · exact List.length_pos_iff.mpr (lowerChar_ne_nil c)
  omega

section

variable {s t : String}

theorem isLinkSwitch_eq_true_iff :
    isLinkSwitch s = true ↔
      ∃ c name, s.toList = c :: name ∧ Text.lowerCase name = ['l', 'i', 'n', 'k'] := by
  unfold isLinkSwitch
  cases hs : s.toList with
  | nil => simp
  | cons c name => simp

/-- The name of the switch has no quotes. -/
theorem quote_not_mem_of_lowerCase {name : List Char}
    (h : Text.lowerCase name = ['l', 'i', 'n', 'k']) : '"' ∉ name := by
  intro hq
  have hmem := quote_mem_lowerFrom name [] hq
  rw [show Text.lowerFrom [] name = ['l', 'i', 'n', 'k'] from h] at hmem
  exact absurd hmem (by decide)

/-- A switch with quotes is an open quote and the name. -/
theorem opensSwitch_eq_of_quoted (hq : '"' ∈ s.toList) : opensSwitch s = isLinkSwitch s := by
  unfold opensSwitch
  cases hlink : isLinkSwitch s with
  | false => exact Bool.and_false _
  | true =>
    obtain ⟨c, name, hs, hname⟩ := isLinkSwitch_eq_true_iff.mp hlink
    have hc : '"' = c := by
      rw [hs, List.mem_cons] at hq
      exact hq.resolve_right (quote_not_mem_of_lowerCase hname)
    simp [hs, ← hc]

theorem opensSwitch_of_not_mem (hq : '"' ∉ s.toList) : opensSwitch s = false := by
  unfold opensSwitch
  cases hs : s.toList with
  | nil => simp
  | cons c name =>
    have hc : c ≠ '"' := fun h => hq (hs ▸ h ▸ List.mem_cons_self)
    simp [hc]

/-- What stands behind an open quote is not the switch and a mark at once. -/
theorem isLinkSwitch_value_of_opens (h : opensSwitch s = true) :
    isLinkSwitch (Argument.value s) = false := by
  unfold opensSwitch at h
  obtain ⟨hhead, hlink⟩ := Bool.and_eq_true_iff.mp h
  obtain ⟨c, name, hs, hname⟩ := isLinkSwitch_eq_true_iff.mp hlink
  have hc : c = '"' := by simpa [hs] using hhead
  have hvalue : (Argument.value s).toList = name := by
    simp [Argument.value, hs, hc, Argument.valueFrom,
      Argument.valueFrom_of_not_mem (quote_not_mem_of_lowerCase hname)]
  by_contra hswitch
  obtain ⟨d, rest, hd, hrest⟩ := isLinkSwitch_eq_true_iff.mp (eq_true_of_ne_false hswitch)
  have hlt := length_lowerCase_lt d rest
  rw [← hd, hvalue, hname, hrest] at hlt
  exact lt_irrefl _ hlt

/-- A token with quotes is a switch together with one of its value without exactly if neither is. -/
theorem isLinkSwitch_eq_iff_of_quoted (hvalue : Argument.value s = Argument.value t)
    (hq : '"' ∈ s.toList) (hfree : '"' ∉ t.toList) :
    isLinkSwitch s = isLinkSwitch t ↔
      opensSwitch s = false ∧ isLinkSwitch (Argument.value s) = false := by
  have ht : isLinkSwitch t = isLinkSwitch (Argument.value s) := by
    rw [hvalue, Argument.value_of_not_mem hfree]
  rw [← opensSwitch_eq_of_quoted hq, ht]
  cases hopens : opensSwitch s with
  | false => exact eq_comm.trans (and_iff_right rfl).symm
  | true => simp [isLinkSwitch_value_of_opens hopens]

/-- Two tokens with one value are link switches together exactly if they are quoted alike as far as
the switch goes. -/
theorem isLinkSwitch_eq_iff (hvalue : Argument.value s = Argument.value t) :
    isLinkSwitch s = isLinkSwitch t ↔ SameSwitch s t := by
  unfold SameSwitch
  by_cases hqs : '"' ∈ s.toList
  · by_cases hqt : '"' ∈ t.toList
    · rw [opensSwitch_eq_of_quoted hqs, opensSwitch_eq_of_quoted hqt]
      simp [hqs, hqt]
    · rw [isLinkSwitch_eq_iff_of_quoted hvalue hqs hqt, opensSwitch_of_not_mem hqt]
      simp [hqs, hqt]
  · by_cases hqt : '"' ∈ t.toList
    · rw [eq_comm, isLinkSwitch_eq_iff_of_quoted hvalue.symm hqt hqs, opensSwitch_of_not_mem hqs,
        hvalue]
      simp [hqs, hqt]
    · have hst : s = t := by
        rw [← Argument.value_of_not_mem hqs, hvalue, Argument.value_of_not_mem hqt]
      simp [hst]

end

section

variable {table : OptionTable} {kind : ToolKind} {s t : String}

/-! ## Visits -/

/-- Visits of tokens with equal values that fall under one rule add the same. -/
theorem contribution_eq {taken taken' : Option String}
    (hvalue : Argument.value s = Argument.value t)
    (hrule : ruleOf table kind s = ruleOf table kind t)
    (htaken : taken.map Argument.value = taken'.map Argument.value) :
    (Visit.mk s (roleOf table kind s) taken).contribution =
      (Visit.mk t (roleOf table kind t) taken').contribution := by
  unfold ruleOf at hrule
  cases hs : roleOf table kind s with
  | attachedSource file =>
    obtain ⟨file', ht⟩ : ∃ file', roleOf table kind t = .attachedSource file' := by
      rw [hs] at hrule
      cases ht : roleOf table kind t <;> simp_all [Role.rule]
    have hfile : Argument.value file = Argument.value file' := by
      rw [← String.toList_inj, ← value_of_attachedSource hs, ← value_of_attachedSource ht, hvalue]
    simp [Visit.contribution, Visit.candidate?, Visit.source?, ht, hfile]
  | _ =>
    -- any other role is its own rule, so both tokens have it
    have ht : roleOf table kind t = roleOf table kind s := by
      rw [hs] at hrule ⊢
      cases ht : roleOf table kind t <;> simp_all [Role.rule]
    rw [ht, hs]
    simp [Visit.contribution, Visit.candidate?, Visit.source?, hvalue, htaken]

theorem ruleOf_head {token token' : String} {rest rest' : List String}
    (h : ∀ i < (token :: rest).length, ¬IsParameter table kind (token :: rest) i →
      (token :: rest)[i]?.map (ruleOf table kind) =
        (token' :: rest')[i]?.map (ruleOf table kind)) :
    ruleOf table kind token = ruleOf table kind token' := by
  simpa using h 0 (by simp) (not_isParameter_zero _)

/-- The walk over tokens with equal values adds the same, if every two tokens that are no parameters
fall under one rule. -/
theorem map_contribution_visits (tokens : List String) : ∀ tokens' : List String,
    tokens.map Argument.value = tokens'.map Argument.value →
    (∀ i < tokens.length, ¬IsParameter table kind tokens i →
      tokens[i]?.map (ruleOf table kind) = tokens'[i]?.map (ruleOf table kind)) →
    (visits table kind tokens).map Visit.contribution =
      (visits table kind tokens').map Visit.contribution := by
  -- both walks take one token or two at a time, since the tokens they stand on fall under one rule
  induction tokens using visits.induct table kind with
  | case1 =>
    intro tokens' hvalues _
    rw [List.map_eq_nil_iff.mp hvalues.symm]
  | case2 token role htakes =>
    intro tokens' hvalues hrules
    obtain ⟨token', rest', rfl, hvalue, hrest⟩ := List.map_eq_cons_iff.mp hvalues.symm
    obtain rfl := List.map_eq_nil_iff.mp hrest
    have hrule := ruleOf_head hrules
    have hc : consumes table kind token = true := takesNext_roleOf.symm.trans htakes
    rw [visits_consuming_last hc, visits_consuming_last (consumes_of_ruleOf_eq hrule ▸ hc),
      List.map_singleton, List.map_singleton, contribution_eq hvalue.symm hrule rfl]
  | case3 token role htakes next rest ih =>
    intro tokens' hvalues hrules
    obtain ⟨token', rest', rfl, hvalue, hrest⟩ := List.map_eq_cons_iff.mp hvalues.symm
    obtain ⟨next', rest', rfl, hnext, hrest⟩ := List.map_eq_cons_iff.mp hrest
    have hrule := ruleOf_head hrules
    have hc : consumes table kind token = true := takesNext_roleOf.symm.trans htakes
    have hmore := ih rest' hrest.symm fun i hi hfree => by
      simpa using hrules (i + 2) (by simpa using hi) ((isParameter_cons_cons hc i).not.mpr hfree)
    have htaken : (some next).map Argument.value = (some next').map Argument.value :=
      congrArg some hnext.symm
    rw [visits_consuming hc, visits_consuming (consumes_of_ruleOf_eq hrule ▸ hc),
      List.map_cons, List.map_cons, hmore, contribution_eq hvalue.symm hrule htaken]
  | case4 token rest role htakes hlink =>
    intro tokens' hvalues hrules
    obtain ⟨token', rest', rfl, -, -⟩ := List.map_eq_cons_iff.mp hvalues.symm
    have hlink' : roleOf table kind token' = .linkSwitch := by
      rw [← Role.rule_eq_linkSwitch_iff]
      exact (ruleOf_head hrules).symm.trans (Role.rule_eq_linkSwitch_iff.mpr hlink)
    rw [visits_linkSwitch hlink, visits_linkSwitch hlink']
    rfl
  | case5 token rest role htakes hlink ih =>
    intro tokens' hvalues hrules
    obtain ⟨token', rest', rfl, hvalue, hrest⟩ := List.map_eq_cons_iff.mp hvalues.symm
    have hrule := ruleOf_head hrules
    have hc : consumes table kind token = false :=
      takesNext_roleOf.symm.trans (eq_false_of_ne_true htakes)
    have hlink' : roleOf table kind token' ≠ .linkSwitch := by
      rw [← Role.rule_eq_linkSwitch_iff.ne]
      exact hrule.symm.trans_ne (Role.rule_eq_linkSwitch_iff.ne.mpr hlink)
    have hmore := ih rest' hrest.symm fun i hi hfree => by
      simpa using hrules (i + 1) (by simpa using hi) ((isParameter_cons hc i).not.mpr hfree)
    rw [visits_other hc hlink, visits_other (consumes_of_ruleOf_eq hrule ▸ hc) hlink',
      List.map_cons, List.map_cons, hmore, contribution_eq hvalue.symm hrule rfl]

end

/-! ## Files -/

/-- The files of a run depend on what its visits add. -/
theorem files_ofVisits_congr {kind : ToolKind} {visits visits' : List Visit}
    (h : visits.map Visit.contribution = visits'.map Visit.contribution) :
    (Classification.ofVisits visits).files kind = (Classification.ofVisits visits').files kind := by
  -- each part of the classification is read off the contributions
  have hcandidates : ∀ visits : List Visit,
      (Classification.ofVisits visits).candidates.map Argument.value =
        (visits.map Visit.contribution).filterMap Contribution.candidate? := by
    intro visits
    rw [List.filterMap_map]
    exact List.map_filterMap
  have hsources : ∀ visits : List Visit,
      (Classification.ofVisits visits).sources =
        (visits.map Visit.contribution).filterMap Contribution.source? := by
    intro visits
    rw [List.filterMap_map]
    rfl
  have hall : ∀ visits : List Visit,
      (Classification.ofVisits visits).allSources =
        (visits.map Visit.contribution).any Contribution.allSources := by
    intro visits
    rw [List.any_map]
    rfl
  unfold Classification.files Classification.accepts
  rw [hcandidates, hcandidates, hsources, hsources, hall, hall, h]

/-! ## Runs -/

/-- Whether a compiler hands over to the linker depends on which of its tokens are link switches. -/
theorem recordedAs_congr {kind : ToolKind} {tokens tokens' : List String}
    (h : kind = .compile → tokens.map isLinkSwitch = tokens'.map isLinkSwitch) :
    kind.recordedAs tokens = kind.recordedAs tokens' := by
  cases kind with
  | link => rfl
  | compile =>
    have hany : ∀ tokens : List String, handsToLinker tokens = (tokens.map isLinkSwitch).any id := by
      intro tokens
      rw [List.any_map]
      rfl
    unfold ToolKind.recordedAs
    rw [hany, hany, h rfl]

namespace Requoted

variable {kind : ToolKind} {tokens tokens' : List String}

theorem length_eq (h : Requoted kind tokens tokens') : tokens.length = tokens'.length := by
  simpa using congrArg List.length h.values

theorem value_eq (h : Requoted kind tokens tokens') {p : String × String}
    (hp : p ∈ tokens.zip tokens') : Argument.value p.1 = Argument.value p.2 := by
  obtain ⟨i, hi, rfl⟩ := List.getElem_of_mem hp
  have hvalues : (tokens.map Argument.value)[i]? = (tokens'.map Argument.value)[i]? := by
    rw [h.values]
  rw [List.length_zip, h.length_eq, Nat.min_self] at hi
  simpa [hi, h.length_eq ▸ hi] using hvalues

/-- The same tokens are link switches to a compiler. -/
theorem isLinkSwitch_eq (h : Requoted kind tokens tokens') (hkind : kind = .compile) :
    tokens.map isLinkSwitch = tokens'.map isLinkSwitch := by
  have hpairs : (tokens.zip tokens').map (isLinkSwitch ∘ Prod.fst) =
      (tokens.zip tokens').map (isLinkSwitch ∘ Prod.snd) :=
    List.map_congr_left fun p hp =>
      (isLinkSwitch_eq_iff (h.value_eq hp)).mpr (h.switches hkind p hp)
  rwa [← List.map_map, ← List.map_map, List.map_fst_zip h.length_eq.le,
    List.map_snd_zip h.length_eq.ge] at hpairs

/-- Every two tokens that are no parameters fall under one rule. -/
theorem ruleOf_eq (h : Requoted kind tokens tokens') :
    ∀ i < tokens.length, ¬IsParameter .compiler (kind.recordedAs tokens) tokens i →
      tokens[i]?.map (ruleOf .compiler (kind.recordedAs tokens)) =
        tokens'[i]?.map (ruleOf .compiler (kind.recordedAs tokens)) := by
  intro i hi hfree
  have hi' : i < tokens'.length := h.length_eq ▸ hi
  have hpair : (tokens.zip tokens')[i]? = some (tokens[i], tokens'[i]) :=
    List.getElem?_zip_eq_some.mpr ⟨List.getElem?_eq_getElem hi, List.getElem?_eq_getElem hi'⟩
  have htable : ∀ name ∈ OptionTable.compiler.names, '"' ∉ name.toList := by decide
  have hrule := (ruleOf_eq_iff htable (h.value_eq (List.mem_of_getElem? hpair))).mpr
    (h.options i hi hfree _ hpair)
  simpa [hi, hi'] using hrule

end Requoted

namespace Invocation

open CommandLine (splitExecutable Split)

/-- Two command lines with the same arguments in other quotes are recorded with the same kind and the
same files, whatever their executables. -/
theorem parse_requoted {base directory line line' : String} {kind : ToolKind} {split split' : Split}
    (hs : splitExecutable line = .ok split) (hs' : splitExecutable line' = .ok split')
    (h : Requoted kind (Argument.tokenize split.rest) (Argument.tokenize split'.rest)) :
    ∃ run run', parse base kind directory line = .ok run ∧
      parse base kind directory line' = .ok run' ∧ run'.kind = run.kind ∧ run'.files = run.files := by
  have hkind := recordedAs_congr h.isLinkSwitch_eq
  have hvisits := map_contribution_visits _ _ h.values h.ruleOf_eq
  refine ⟨ofSplit base kind directory split, ofSplit base kind directory split',
    congrArg (Except.map _) hs, congrArg (Except.map _) hs', hkind.symm, ?_⟩
  show (Classification.ofVisits (visits _ (kind.recordedAs (Argument.tokenize split'.rest)) _)).files
      (kind.recordedAs (Argument.tokenize split'.rest)) = _
  rw [← hkind]
  exact (files_ofVisits_congr hvisits).symm

/-- Quotes inside a source option, around a parameter and around a plain token. -/
theorem parse_requoted_sources :
    splitExecutable "cl.exe /Tc\"a b.x\" /I \"/inc\" \"m.cpp\"" =
        .ok ⟨"cl.exe", "/Tc\"a b.x\" /I \"/inc\" \"m.cpp\""⟩ ∧
      splitExecutable "cl.exe /Tca\" \"b.x /I /inc m.cpp" =
        .ok ⟨"cl.exe", "/Tca\" \"b.x /I /inc m.cpp"⟩ ∧
      ∃ run run', parse "/b" .compile "p" "cl.exe /Tc\"a b.x\" /I \"/inc\" \"m.cpp\"" = .ok run ∧
        parse "/b" .compile "p" "cl.exe /Tca\" \"b.x /I /inc m.cpp" = .ok run' ∧
        run'.kind = run.kind ∧ run'.files = run.files := by
  have hs : splitExecutable "cl.exe /Tc\"a b.x\" /I \"/inc\" \"m.cpp\"" =
      .ok ⟨"cl.exe", "/Tc\"a b.x\" /I \"/inc\" \"m.cpp\""⟩ := by decide +kernel
  have hs' : splitExecutable "cl.exe /Tca\" \"b.x /I /inc m.cpp" =
      .ok ⟨"cl.exe", "/Tca\" \"b.x /I /inc m.cpp"⟩ := by decide +kernel
  have htokens : Argument.tokenize "/Tc\"a b.x\" /I \"/inc\" \"m.cpp\"" =
      ["/Tc\"a b.x\"", "/I", "\"/inc\"", "\"m.cpp\""] := by decide +kernel
  have htokens' : Argument.tokenize "/Tca\" \"b.x /I /inc m.cpp" =
      ["/Tca\" \"b.x", "/I", "/inc", "m.cpp"] := by decide +kernel
  refine ⟨hs, hs', parse_requoted hs hs' ?_⟩
  rw [htokens, htokens']
  exact ⟨by decide +kernel, by decide +kernel, by decide +kernel⟩

/-- An option in quotes counts as a file if its value ends like one. -/
theorem quoted_option_is_file :
    ¬∀ (base directory line line' : String) (kind : ToolKind) (run run' : Invocation),
      parse base kind directory line = .ok run → parse base kind directory line' = .ok run' →
      run.tokens.map Argument.value = run'.tokens.map Argument.value →
      run'.kind = run.kind ∧ run'.files = run.files := by
  intro h
  have hplain : parse "/b" .link "p" "link.exe /OUT:x.lib" =
      .ok ⟨.link, "link.exe", ["/OUT:x.lib"], "\"/b/link.exe\" /OUT:x.lib", "p", []⟩ := by
    decide +kernel
  have hquoted : parse "/b" .link "p" "link.exe \"/OUT:x.lib\"" =
      .ok ⟨.link, "link.exe", ["\"/OUT:x.lib\""], "\"/b/link.exe\" \"/OUT:x.lib\"", "p",
        ["/OUT:x.lib"]⟩ := by
    decide +kernel
  have hfiles := (h _ _ _ _ _ _ _ hplain hquoted (by decide +kernel)).2
  exact absurd hfiles (by decide)

end Invocation

end BuildCommands
