import BuildCommands.Program
import BuildCommands.Proofs.EscapeCodes
import BuildCommands.Proofs.FileWriting

/-!
# Failures without escapes

What a failure says is put together from words of the program, from numbers, and from what the
failure is about.  Packages are shown by their names and versions and files by their paths; every
other text of a package, an event or a file is shown in quotes, if at all.

    verify installed package none = .error failure    is told by names and versions
                                                                        (verify_escapeFree)
    readEvents reader tree directory input path = .error (.faulty failure)
                                                      is told by the path, a line and a field
                                                                        (readEvents_escapeFree)
-/

namespace BuildCommands

/-! ## Messages -/

theorem Message.line_escapeFree {channel : Channel} {content : Painted} (h : content.EscapeFree) :
    (Message.line channel content).EscapeFree := by
  intro s hs
  rcases List.mem_append.mp hs with hs | hs
  · exact h s hs
  · cases List.mem_singleton.mp hs
    decide

theorem Message.failure_escapeFree {text : String} (h : BuildCommands.EscapeFree text) :
    (Message.failure true text).EscapeFree := by
  refine Message.line_escapeFree (painted_escapeFree _ _ ?_)
  show BuildCommands.EscapeFree ("Error: " ++ text)
  simp +decide [h]

theorem fatal_escapeFree {text : String} (h : EscapeFree text) : (fatal text).EscapeFree := by
  refine Message.line_escapeFree fun s hs => ?_
  cases List.mem_singleton.mp hs
  simp +decide [h]

theorem Text.Utf8Fault.message_escapeFree (fault : Text.Utf8Fault) : EscapeFree fault.message := by
  have hreason : EscapeFree fault.reason.message := by
    cases fault.reason <;> decide
  have hdigits : ∀ n, '\x1b' ∉ Text.hexadecimal 2 n := escape_not_mem_hexadecimal 2
  unfold Text.Utf8Fault.message
  simp only
  split
  · simp +decide [hreason, hdigits]
  · simp +decide [hreason]

theorem Text.overlongMessage_escapeFree (digits : Nat) :
    EscapeFree (Text.overlongMessage digits) := by
  unfold Text.overlongMessage
  simp +decide

theorem Json.Excess.message_escapeFree (excess : Json.Excess) : EscapeFree excess.message := by
  cases excess with
  | nesting innermost => cases innermost <;> decide
  | digits count => exact Text.overlongMessage_escapeFree count

theorem escape_not_mem_surrogateEscape (code : Nat) : '\x1b' ∉ surrogateEscape code := by
  have hcode := escape_not_mem_hexadecimal 4 code
  unfold surrogateEscape
  simp [hcode]

theorem SurrogateRun.message_escapeFree (run : SurrogateRun) : EscapeFree run.message := by
  unfold SurrogateRun.message
  simp only
  split
  · next code _ => simp +decide [escape_not_mem_surrogateEscape code]
  · simp +decide

/-- Showing surrogates as escapes adds no escape character. -/
theorem Surrogates.shown_escapeFree (surrogates : Surrogates) {text : String}
    (h : EscapeFree text) : EscapeFree (surrogates.shown text) := by
  unfold Surrogates.shown
  rw [escapeFree_ofList, List.mem_flatMap]
  rintro ⟨c, hc, hmem⟩
  cases hcode : surrogates.code? c with
  | none =>
    rw [hcode, Option.elim_none, List.mem_singleton] at hmem
    exact h (hmem ▸ hc)
  | some code =>
    rw [hcode, Option.elim_some] at hmem
    exact escape_not_mem_surrogateEscape code hmem

/-! ## Packages -/

namespace Package

variable {installed : Installed} {package : String}

theorem version?_escapeFree (h : ∀ entry ∈ installed.versions, EscapeFree entry.2)
    {version : String}
    (hversion : installed.version? package = some version) : EscapeFree version := by
  obtain ⟨entry, hentry, rfl⟩ := Option.map_eq_some_iff.mp hversion
  exact h entry (List.mem_of_find?_eq_some hentry)

theorem minimumFor_escapeFree {minimum : String} (h : minimumFor package none = .ok minimum) :
    EscapeFree minimum := by
  have hrequirements : ∀ entry ∈ requirements, EscapeFree entry.2 := by
    decide
  unfold minimumFor at h
  split at h
  · next hnone => cases hnone
  split at h
  · next found minimum hfound =>
    cases h
    exact hrequirements _ (List.mem_of_find?_eq_some hfound)
  · cases h

/-- What a library does not read is told in quotes, or by the number of its digits. -/
theorem read_escapeFree {library : VersionLibrary} {text : String} {failure : Failure}
    (h : library.read text = .error failure) : EscapeFree failure.message := by
  unfold VersionLibrary.read at h
  split at h
  · cases h
  · next fault _ =>
    cases h
    unfold Failure.message
    cases fault with
    | invalid => simp +decide
    | overlong digits => exact Text.overlongMessage_escapeFree digits

theorem judge_escapeFree (hinstalled : ∀ entry ∈ installed.versions, EscapeFree entry.2)
    {minimum version : String} {sufficient : Bool}
    (h : judge installed package minimum = .ok (.installed version sufficient)) :
    EscapeFree version := by
  unfold judge at h
  split at h
  · cases h
  · next text htext =>
    obtain ⟨_, -, h⟩ := bind_eq_ok_iff.mp h
    obtain ⟨_, -, h⟩ := bind_eq_ok_iff.mp h
    cases h
    exact version?_escapeFree hinstalled htext

/-- What is wrong with a package is told by its name and its versions. -/
theorem verify_escapeFree (hinstalled : ∀ entry ∈ installed.versions, EscapeFree entry.2)
    (hpackage : EscapeFree package) {failure : Failure}
    (h : verify installed package none = .error failure) : EscapeFree failure.message := by
  unfold verify at h
  rcases bind_eq_error_iff.mp h with h | ⟨minimum, hminimum, h⟩
  · unfold minimumFor at h
    split at h
    · cases h
    split at h
    · cases h
    · cases h
      unfold Failure.message
      simp +decide [hpackage]
  have hleast := minimumFor_escapeFree hminimum
  rcases bind_eq_error_iff.mp h with h | ⟨status, hstatus, h⟩
  · unfold judge at h
    split at h
    · cases h
    rcases bind_eq_error_iff.mp h with h | ⟨_, -, h⟩
    · exact read_escapeFree h
    rcases bind_eq_error_iff.mp h with h | ⟨_, -, h⟩
    · exact read_escapeFree h
    · cases h
  split at h
  · cases h
    unfold Failure.message
    simp +decide [hpackage, hleast]
  · next version =>
    cases h
    have hversion := judge_escapeFree hinstalled hstatus
    unfold Failure.message
    simp +decide [hpackage, hversion, hleast]
  · cases h

theorem complaint?_escapeFree (hinstalled : ∀ entry ∈ installed.versions, EscapeFree entry.2)
    {purpose : String} (hpackage : EscapeFree package) (hpurpose : EscapeFree purpose)
    {complaint : Message} (h : complaint? installed package purpose = some complaint) :
    complaint.EscapeFree := by
  unfold complaint? at h
  split at h
  · cases h
  · next failure hverify =>
    cases h
    have hfailure := verify_escapeFree hinstalled hpackage hverify
    refine Message.failure_escapeFree ?_
    simp +decide [hpackage, hpurpose, hfailure]

end Package

/-! ## Events -/

theorem Json.Fault.message_escapeFree (fault : Json.Fault) : EscapeFree fault.message := by
  cases fault <;> decide

theorem ofFields_escapeFree {fields : List (String × Json)} {fault : EventFault}
    (h : BuildEvent.ofFields fields = .error fault) : EscapeFree fault.describe := by
  have hfield : ∀ {name : String}, EscapeFree name → textField fields name = .error fault →
      EscapeFree fault.describe := by
    intro name hname h
    unfold textField at h
    split at h
    · cases h
    · cases h
      unfold EventFault.describe
      simp +decide [hname]
  unfold BuildEvent.ofFields at h
  rcases bind_eq_error_iff.mp h with h | ⟨task, -, h⟩
  · exact hfield (by decide) h
  rcases bind_eq_error_iff.mp h with h | ⟨line, -, h⟩
  · exact hfield (by decide) h
  rcases bind_eq_error_iff.mp h with h | ⟨file, -, h⟩
  · exact hfield (by decide) h
  · cases h

theorem ofJson_escapeFree {line : Int} {value : Json} {failure : EventFailure}
    (h : BuildEvent.ofJson line value = .error failure) : EscapeFree failure.fault.describe := by
  unfold BuildEvent.ofJson at h
  split at h
  · next fields =>
    cases hfields : BuildEvent.ofFields fields with
    | ok event =>
      rw [hfields] at h
      cases h
    | error fault =>
      rw [hfields] at h
      cases h
      exact ofFields_escapeFree hfields
  · cases h
    have htype : ∀ value : Json, EscapeFree value.typeName := by
      intro value
      unfold Json.typeName
      split <;> decide
    unfold EventFault.describe
    simp +decide [htype]

namespace EventLog

/-- A fault of an event is described without escapes; nothing is asked of a limit. -/
def FaultEscapeFree (failure : LogFailure) : Prop :=
  ∀ faulty, failure = .faulty faulty → EscapeFree faulty.fault.describe

theorem notJson_escapeFree (fault : Json.Fault) : EscapeFree (EventFault.notJson fault).describe := by
  have hfault := Json.Fault.message_escapeFree fault
  unfold EventFault.describe
  simp +decide [hfault]

theorem ofValue_escapeFree {line : Int} {value : Json} {failure : LogFailure}
    (h : ofValue line value = .error failure) : FaultEscapeFree failure := by
  unfold ofValue at h
  cases hevent : BuildEvent.ofJson line value with
  | ok event =>
    rw [hevent] at h
    cases h
  | error found =>
    rw [hevent] at h
    cases h
    rintro _ ⟨⟩
    exact ofJson_escapeFree hevent

theorem readLine_escapeFree {reader : Json.Reader} {number : Nat} {line : List Char}
    {failure : LogFailure} (h : readLine reader number line = .error failure) :
    FaultEscapeFree failure := by
  unfold readLine at h
  split at h
  · exact ofValue_escapeFree h
  · cases h
    rintro _ ⟨⟩
    exact notJson_escapeFree _
  · cases h
    exact nofun

/-- The failure that ends a reading is one of its results. -/
theorem mem_of_collect {results : List (Except LogFailure BuildEvent)} {failure : LogFailure} :
    ∀ {done : List BuildEvent}, (collect done results).failure? = some failure →
      .error failure ∈ results := by
  induction results with
  | nil => exact nofun
  | cons result results ih =>
    intro done h
    cases result with
    | ok event => exact List.mem_cons_of_mem _ (ih h)
    | error found =>
      cases h
      exact List.mem_cons_self

theorem ofText_escapeFree {reader : Json.Reader} {text : List Char} {failure : LogFailure}
    (h : (ofText reader text).failure? = some failure) : FaultEscapeFree failure := by
  unfold ofText at h
  split at h
  · unfold ofArray at h
    split at h
    · cases h
      rintro _ ⟨⟩
      exact notJson_escapeFree _
    · cases h
      exact nofun
    · obtain ⟨value, -, hvalue⟩ := List.mem_map.mp (mem_of_collect h)
      exact ofValue_escapeFree hvalue
    · cases h
  · obtain ⟨line, -, hline⟩ := List.mem_map.mp (mem_of_collect h)
    exact readLine_escapeFree hline

end EventLog

theorem EventFailure.message_escapeFree {failure : EventFailure}
    (h : EscapeFree failure.fault.describe) : EscapeFree failure.message := by
  unfold EventFailure.message
  split
  · exact h
  · simp +decide [h]

theorem FileFailure.message_escapeFree (failure : FileFailure) : EscapeFree failure.message := by
  have hfault : EscapeFree failure.fault.describe := by
    cases failure.fault <;> decide
  unfold FileFailure.message
  simp +decide [hfault]

/-- What is wrong with the events of a file names the file, a line and a field at most. -/
theorem readEvents_escapeFree {reader : Json.Reader} {tree : FileTree} {directory : Location}
    {input : ByteArray} {path : String} (hpath : EscapeFree path) {failure : EventFailure}
    (h : readEvents reader tree directory input path = .error (.faulty failure)) :
    EscapeFree failure.message := by
  have htext : ∀ {text : List Char}, eventsOfText reader text = .error (.faulty failure) →
      EscapeFree failure.message := by
    intro text h
    unfold eventsOfText at h
    split at h
    · cases h
    · next events found heq =>
      cases h
      exact EventFailure.message_escapeFree
        (EventLog.ofText_escapeFree (by rw [heq]) failure rfl)
    · cases h
  unfold readEvents at h
  split at h
  · split at h
    · exact htext h
    · cases h
  split at h
  · next fault _ =>
    cases h
    have hfile := FileFailure.message_escapeFree ⟨fault, path⟩
    refine EventFailure.message_escapeFree ?_
    unfold EventFault.describe
    simp +decide [hpath, hfile]
  split at h
  · exact htext h
  · cases h

end BuildCommands
