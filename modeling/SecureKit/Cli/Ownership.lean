import SecureKit.Base.Kdf
import SecureKit.Cli.Protocol
import SecureKit.File.AllOrNothing

/-!
# The files a command touches

A command should truncate, write and remove the files it has created, and no others.  There are two
steps where it does not make sure of that:

* It creates its temporary file with an existence check and an `open` that truncates.  Another
  process may create the file in between.
* Where `write_new_output_file` gives up without a file, its `catch` block removes the name that was
  tried last, and that name may have been passed over because it exists.

A step is `Careful` if it is not one of these.  In a run whose steps are careful the command touches
its own files only, and the first step that is not careful touches a foreign one
(`touchesOwn_iff`).

## The condition

`Careful` looks at the file system in front of a step, and at the trace of the command.  A file is
opened only where there is none; and where the command ends without having created a file, the name
it removes refers to none.  `touchesOwn_iff` then has both directions for every step of every run
whose steps so far were careful: the step touches files of the command only if and only if it is
careful.

The argument is by the phases of `Cli.Protocol`.  With a file that is its own, a command writes to it
and unlinks its name (`Holds`), and other processes only create files, so the name still refers to
it.  Without one there are the two steps above, and no others that touch anything.

`crowded` is a system in which all names but the output exist, and the file under the last name that
was tried is removed.
-/

namespace SecureKit.Cli

open ByteString Effect Iostream Evp Posix File

/-! ## Careful steps -/

/-- A file is opened only where there is none; and a command that has no file of its own removes
only names that do not exist. -/
def Careful (trace : List Event) (fs : FileSystem) : Event → Prop
  | .openTruncated temp (some _) => fs.entry temp = none
  | .unlink path true =>
    (∃ temp file, .openTruncated temp (some file) ∈ trace) ∨ fs.entry path = none
  | _ => True

/-- The program has created the file: it has opened a file of this number. -/
def Own (done : List Event) (file : ℕ) : Prop := ∃ temp, .openTruncated temp (some file) ∈ done

/-! ## What a phase says about the trace -/

/-- The file of the phase is the one that was opened. -/
def Phase.Opened (trace : List Event) : Phase → Prop
  | .searching => ∀ temp file, .openTruncated temp (some file) ∉ trace
  | .writing temp file | .closed temp file => .openTruncated temp (some file) ∈ trace
  | .finished => True

section Phases

variable {trace before rest : List Event} {φ ψ : Phase} {e : Event}

lemma Phase.Opened.step (h : φ.Opened trace) (hstep : Phase.Step φ e ψ) :
    ψ.Opened (trace ++ [e]) := by
  have hkept : ∀ temp file, .openTruncated temp (some file) ∈ trace →
      .openTruncated temp (some file) ∈ trace ++ [e] := by
    intro temp file hmem
    exact List.mem_append_left _ hmem
  cases hstep with
  | checked | input | unopened =>
    intro temp file hmem
    rcases List.mem_append.mp hmem with hbefore | hlast
    · exact h temp file hbefore
    · cases List.mem_singleton.mp hlast
  | opened temp file => exact List.mem_append_right _ (List.mem_singleton.mpr rfl)
  | abandon | remove => trivial
  | write temp file | close temp file | link temp file | rechecked temp file =>
    exact hkept temp file h

lemma Phase.opened_of_phaseAfter (h : phaseAfter trace = some φ) : φ.Opened trace := by
  induction trace using List.reverseRecOn generalizing φ with
  | nil =>
    obtain rfl : Phase.searching = φ := Option.some.inj h
    intro temp file hmem
    cases hmem
  | append_singleton trace e ih =>
    obtain ⟨χ, hχ, hnext⟩ := foldlM_concat_iff.mp h
    exact (ih hχ).step (Phase.step_of_next hnext)

/-- The removal is the last system call. -/
lemma Phase.eq_nil_of_finished (h : rest.foldlM Phase.next .finished = some ψ) : rest = [] := by
  cases rest with
  | nil => rfl
  | cons e rest =>
    rw [List.foldlM_cons] at h
    obtain ⟨χ, hnext, -⟩ := Option.bind_eq_some_iff.mp h
    cases Phase.step_of_next hnext

end Phases

/-! ## What a phase says about the file system -/

/-- The temporary name refers to the file, and the command alone writes to it. -/
def Phase.Holds (fs : FileSystem) : Phase → Prop
  | .writing temp file | .closed temp file => fs.entry temp = some file ∧ ∃ bytes, fs.Accepted file bytes
  | .searching | .finished => True

section Runs

variable {trace done : List Event} {φ ψ final : Phase} {fs₀ fs fs' : FileSystem} {e : Event}

/-- **Careful steps keep what the phase says.** -/
lemma Phase.Holds.step (h : φ.Holds fs) (hpossible : fs.Possible e) (hcareful : Careful trace fs e)
    (hstep : Phase.Step φ e ψ) : ψ.Holds (fs.after e) := by
  cases hstep with
  | checked | input | unopened | abandon | remove => trivial
  | opened temp file =>
    -- A careful `open` meets no file, so it creates one.
    have hnone : fs.entry temp = none := hcareful
    have hafter : fs.after (.openTruncated temp (some file)) =
        (fs.create temp file []).attach file file := by
      simp only [FileSystem.after, hnone]
    rw [hafter]
    exact ⟨Function.update_self _ _ _, [], FileSystem.accepted_create fs temp file⟩
  | write temp file data accepted moved =>
    obtain ⟨hentry, bytes, haccepted⟩ := h
    have htransfer := haccepted.transfer (data.take accepted) moved
    exact ⟨(congrFun (fs.entry_transfer _ _ _) temp).trans hentry, _, htransfer⟩
  | close temp file ok moved =>
    obtain ⟨hentry, bytes, haccepted⟩ := h
    exact ⟨(congrFun (fs.entry_transfer _ _ _) temp).trans hentry, haccepted.exists_fclose ok moved⟩
  | link temp file output answer =>
    obtain ⟨hentry, hbytes⟩ := h
    cases answer with
    | already_exists | failed => exact ⟨hentry, hbytes⟩
    | linked =>
      -- The output did not exist, so it is another name.
      have hne : temp ≠ output := by
        rintro rfl
        rw [hpossible.2] at hentry
        cases hentry
      exact ⟨(Function.update_of_ne hne _ _).trans hentry, hbytes⟩
  | rechecked temp file path answer => exact h

lemma Phase.Holds.of_creates (h : φ.Holds fs) (hcreates : fs.Creates fs') : φ.Holds fs' := by
  cases φ with
  | searching | finished => trivial
  | writing temp file | closed temp file =>
    obtain ⟨hentry, bytes, haccepted⟩ := h
    have hsame := hcreates.same haccepted.contents_ne_none
    exact ⟨(hsame.entry_iff temp).mpr hentry, bytes, haccepted.of_same hsame⟩

lemma exists_holds (haccepts : phaseAfter trace = some final)
    (h : Running (Careful trace) trace fs₀ fs done) :
    ∃ φ, phaseAfter done = some φ ∧ φ.Holds fs := by
  apply Running.invariant (I := fun fs φ => φ.Holds fs) _ haccepts _ _ h
  · trivial
  · intro fs φ e χ hholds hpossible hcareful _ hnext
    exact hholds.step hpossible hcareful (Phase.step_of_next hnext)
  · intro fs fs' φ hholds hcreates
    exact hholds.of_creates hcreates

/-! ## One step -/

/-- What a file system says of a name that is removed without a file of the command. -/
lemma careful_abandon_iff {path : Path} {ok : Bool}
    (hnone : ∀ temp file, .openTruncated temp (some file) ∉ trace) :
    Careful trace fs (.unlink path ok) ↔ ok = true → fs.entry path = none := by
  cases ok with
  | false => simp [Careful]
  | true => simp [Careful, hnone]

/-- A removal by a command that has opened a file. -/
lemma careful_remove {path temp : Path} {ok : Bool} {file : ℕ}
    (hmem : .openTruncated temp (some file) ∈ trace) : Careful trace fs (.unlink path ok) := by
  cases ok with
  | false => trivial
  | true => exact .inl ⟨temp, file, hmem⟩

/-- A command without a file has none of its own. -/
lemma Phase.Opened.not_own {file : ℕ} (h : Phase.searching.Opened done) : ¬ Own done file := by
  intro hown
  obtain ⟨temp, hmem⟩ := hown
  exact h temp file hmem

/-- **The step of a command in a phase** touches its own files exactly if it is careful.  For a
removal without a file, the trace has to be one in which nothing was opened. -/
lemma Phase.Holds.touches_iff (h : φ.Holds fs) (hopened : φ.Opened done) (hsubset : done ⊆ trace)
    (hpossible : fs.Possible e) (hstep : Phase.Step φ e ψ)
    (hlast : ψ = .finished → ∀ temp file, .openTruncated temp (some file) ∈ trace →
      .openTruncated temp (some file) ∈ done ++ [e]) :
    (∀ file, fs.Touches e file → Own done file) ↔ Careful trace fs e := by
  cases hstep with
  | checked | input | unopened => exact ⟨fun _ => trivial, fun _ _ hfalse => hfalse.elim⟩
  -- Opening with truncation touches whatever file is under the name.
  | opened temp n =>
    constructor
    · intro hown
      change fs.entry temp = none
      rw [Option.eq_none_iff_forall_ne_some]
      intro file hentry
      exact hopened.not_own (hown file hentry)
    · intro hcareful file htouches
      have hnone : fs.entry temp = none := hcareful
      have hsome : fs.entry temp = some file := htouches
      rw [hnone] at hsome
      cases hsome
  -- The `catch` block removes the last name that was tried.  The command has created no file,
  -- so the name must refer to none.
  | abandon path ok =>
    have hnone : ∀ temp file, .openTruncated temp (some file) ∉ trace := by
      intro temp file hmem
      rcases List.mem_append.mp (hlast rfl temp file hmem) with hbefore | hremoval
      · exact hopened temp file hbefore
      · cases List.mem_singleton.mp hremoval
    rw [careful_abandon_iff hnone]
    constructor
    · rintro hown rfl
      rw [Option.eq_none_iff_forall_ne_some]
      intro file hentry
      exact hopened.not_own (hown file hentry)
    · intro hcareful file htouches
      cases ok with
      | false => exact htouches.elim
      | true =>
        have hsome : fs.entry path = some file := htouches
        rw [hcareful rfl] at hsome
        cases hsome
  -- From here on the temporary name is the command's own.
  | write temp n | close temp n =>
    obtain ⟨-, bytes, haccepted⟩ := h
    refine ⟨fun _ => trivial, fun _ file htouches => ?_⟩
    rw [haccepted.touches htouches]
    exact ⟨temp, hopened⟩
  | link temp n output answer =>
    refine ⟨fun _ => trivial, fun _ file htouches => ?_⟩
    cases answer with
    | already_exists | failed => exact htouches.elim
    | linked =>
      obtain rfl : n = file := Option.some.inj (h.1.symm.trans htouches)
      exact ⟨temp, hopened⟩
  | rechecked => exact ⟨fun _ => trivial, fun _ _ hfalse => hfalse.elim⟩
  | remove temp n ok =>
    refine ⟨fun _ => careful_remove (hsubset hopened), fun _ file htouches => ?_⟩
    cases ok with
    | false => exact htouches.elim
    | true =>
      obtain rfl : n = file := Option.some.inj (h.1.symm.trans htouches)
      exact ⟨temp, hopened⟩

end Runs

/-! ## Runs -/

/-- **Which files a command touches**: in a run whose steps so far were careful, the next step
touches no file but those the command has created if and only if it is careful as well. -/
theorem touchesOwn_iff (command : WriteCommand) (ssl : Openssl) (kernel : Kernel) (cin : IStream)
    (lib : Lib) {fs₀ fs : FileSystem} {done : List Event} {e : Event}
    (hrun : Running (Careful (command.trace ssl kernel cin lib)) (command.trace ssl kernel cin lib)
      fs₀ fs done)
    (hnext : done ++ [e] <+: command.trace ssl kernel cin lib) (hpossible : fs.Possible e) :
    (∀ file, fs.Touches e file → Own done file) ↔
      Careful (command.trace ssl kernel cin lib) fs e := by
  obtain ⟨final, haccepts⟩ := command.exists_phaseAfter ssl kernel cin lib
  obtain ⟨φ, hφ, hholds⟩ := exists_holds haccepts hrun
  obtain ⟨rest, hrest⟩ := hnext
  rw [← hrest] at haccepts ⊢
  obtain ⟨ψ, hψ, hafter⟩ := foldlM_append_iff.mp haccepts
  have hnext : φ.next e = some ψ := (foldlM_concat hφ e).symm.trans hψ
  apply hholds.touches_iff (Phase.opened_of_phaseAfter hφ) _ hpossible (Phase.step_of_next hnext)
  · rintro rfl temp file hmem
    rwa [Phase.eq_nil_of_finished hafter, List.append_nil] at hmem
  · intro e' hmem
    simp [hmem]

/-! ## A name that is taken thirty-two times -/

/-- The name that is tried for the output `o` if all random bytes are zero. -/
def takenPath : Path := [0x6f] ++ tempSuffix (ByteArr.zeros 16)

/-- A system in which everything but `o` exists. -/
def crowded : Kernel := { withoutInput true with status := fun _ path => some (path != [0x6f]) }

/-- A foreign file has the name. -/
def foreignFile : FileSystem := noFiles.create takenPath 0 [0x61]

/-- What the command does before it gives up. -/
def collisions : List Event :=
  [.status [0x6f] (some false)] ++ List.replicate 32 (.status takenPath (some true))

/-- The system calls of `write_binary_file`. -/
def crowdedTrace : List Event :=
  (WriteCommand.write_binary_file [0x6f] [0x62]).trace standardLibrary crowded
    { source := .finite [] .eof } {}

lemma takenPath_ne : takenPath ≠ [0x6f] := by
  simp [takenPath, tempSuffix, bytesFromLiteral]

lemma entry_takenPath : foreignFile.entry takenPath = some 0 := by
  simp [foreignFile, FileSystem.create]

lemma outcome_temporaryOutputPathFor {lib : Lib} :
    Outcome (temporaryOutputPathFor standardLibrary [0x6f]) lib (fun path _ => path = takenPath)
      (fun _ _ => False) := by
  rw [temporaryOutputPathFor, outcome_bind]
  apply outcome_randomBytes_drawn (by decide) (by decide)
  · intro token lib' hdraws
    obtain ⟨t, hdraw⟩ := hdraws
    have htoken : ByteArr.zeros 16 = token := Option.some.inj hdraw
    rw [outcome_pure, ← htoken]
    rfl
  · intro hunavailable
    exact absurd (standardLibrary_available 0) hunavailable

/-- Every attempt is a collision. -/
lemma outcome_openCliOutputLoop_crowded (attempts : ℕ) (w : World (Command crowded))
    (hpath : attempts = 0 → w.output.tempPath = takenPath) :
    Outcome (openCliOutputLoop standardLibrary [0x6f] attempts) w (fun _ _ => False)
      (fun _ w' => w'.output = { w.output with
        trace := w.output.trace ++ List.replicate attempts (.status takenPath (some true))
        tempPath := takenPath }) := by
  induction attempts generalizing w with
  | zero =>
    rw [openCliOutputLoop, outcome_throw, ← hpath rfl]
    simp
  | succ attempts ih =>
    rw [openCliOutputLoop, outcome_bind, outcome_securekit, outcome_onLib]
    apply outcome_temporaryOutputPathFor.mono
    · rintro path lib rfl
      have htaken : ∀ t, crowded.status t takenPath = some true := by
        intro t
        simp [crowded, takenPath_ne]
      simp only [outcome_bind, outcome_onCommand, outcome_modify, outcome_sys, outcome_ite, htaken]
      refine ⟨fun _ => ?_, fun hfree => absurd hfree (by decide)⟩
      apply (ih _ fun _ => rfl).mono
      · intro _ _ hfalse
        exact hfalse
      · intro failure w' hrest
        rw [hrest]
        simp [Command.record, List.replicate_succ]
    · intro _ _ hfalse
      exact hfalse.elim

lemma crowdedTrace_eq : crowdedTrace = collisions ++ [.unlink takenPath true] := by
  have hbody : Outcome (WriteCommand.body (.write_binary_file [0x6f] [0x62]) standardLibrary)
      ({ input := { source := .finite [] .eof }, output := {}, lib := {} } : World (Command crowded))
      (fun _ _ => False)
      (fun _ w => w.output.trace = collisions ++ [.unlink takenPath true]) := by
    have habsent : ∀ t, crowded.status t [0x6f] = some false := fun _ => rfl
    have hremoved : ∀ t, crowded.unlink t takenPath = true := fun _ => rfl
    simp only [WriteCommand.body, writeBinaryFile, writeNewOutputFile, outcome_bind, outcome_onCommand,
      ensureOutputFileDoesNotExist, outcome_sys, habsent, outcome_orThrow_some, outcome_throwIf,
      outcome_tryCatch]
    refine ⟨fun hexists => absurd hexists Bool.false_ne_true, fun _ => ?_⟩
    apply (outcome_openCliOutputLoop_crowded 32 _ (by simp)).mono
    · intro _ _ hfalse
      exact hfalse.elim
    · intro failure w hcollided
      rw [hcollided]
      simp only [cleanUp, closeIfOpen, removeIf, removeFileQuietly, outcome_bind, outcome_get,
        outcome_ite, outcome_pure, outcome_sys, outcome_throw, hremoved]
      refine ⟨fun hopen => absurd rfl hopen, fun _ => ⟨fun _ => rfl, fun hempty => ?_⟩⟩
      exact absurd (by simp [takenPath]) hempty
  unfold crowdedTrace WriteCommand.trace
  cases hresult : WriteCommand.body (.write_binary_file [0x6f] [0x62]) standardLibrary
      ({ input := { source := .finite [] .eof }, output := {}, lib := {} } : World (Command crowded)) with
  | ok _ w => exact (hbody.of_ok hresult).elim
  | error _ w => exact hbody.of_error hresult

/-- A call that changes nothing may be made again and again. -/
lemma running_replicate {admits : FileSystem → Event → Prop} {trace done : List Event}
    {fs₀ fs : FileSystem} {e : Event} (hpossible : fs.Possible e) (hadmits : admits fs e)
    (hstay : fs.after e = fs) (n : ℕ) (hrun : Running admits trace fs₀ fs done)
    (hnext : done ++ List.replicate n e <+: trace) :
    Running admits trace fs₀ fs (done ++ List.replicate n e) := by
  induction n generalizing done with
  | zero => simpa using hrun
  | succ n ih =>
    rw [List.replicate_succ, List.append_cons] at hnext ⊢
    apply ih _ hnext
    have hstep := hrun.step ((List.prefix_append _ _).trans hnext) hpossible hadmits
    rwa [hstay] at hstep

lemma running_collisions :
    Running (Careful crowdedTrace) crowdedTrace foreignFile foreignFile collisions := by
  have hlast : collisions <+: crowdedTrace := ⟨_, crowdedTrace_eq.symm⟩
  have hfree : foreignFile.entry [0x6f] = none := by
    simp [foreignFile, FileSystem.create, Function.update_of_ne takenPath_ne.symm, noFiles]
  have hchecked : Running (Careful crowdedTrace) crowdedTrace foreignFile foreignFile
      [.status [0x6f] (some false)] := by
    apply running_start.step ((List.prefix_append _ _).trans hlast) _ trivial
    simp [FileSystem.Possible, hfree]
  apply running_replicate _ trivial rfl 32 hchecked hlast
  simp [FileSystem.Possible, entry_takenPath]

/-- At the removal. -/
theorem touchesOwn_iff_crowded :
    (∀ file, foreignFile.Touches (.unlink takenPath true) file → Own collisions file) ↔
      Careful crowdedTrace foreignFile (.unlink takenPath true) :=
  touchesOwn_iff (.write_binary_file [0x6f] [0x62]) standardLibrary crowded
    { source := .finite [] .eof } {} running_collisions ⟨[], crowdedTrace_eq.symm⟩ trivial

/-- **The command removes a file it has not created.** -/
theorem foreignFile_removed :
    Running (Careful crowdedTrace) crowdedTrace foreignFile foreignFile collisions ∧
      crowdedTrace = collisions ++ [.unlink takenPath true] ∧
      foreignFile.Possible (.unlink takenPath true) ∧
      foreignFile.Touches (.unlink takenPath true) 0 ∧ ¬ Own collisions 0 ∧
      (foreignFile.after (.unlink takenPath true)).entry takenPath = none := by
  refine ⟨running_collisions, crowdedTrace_eq, trivial, entry_takenPath, ?_, ?_⟩
  · intro hown
    obtain ⟨temp, hmem⟩ := hown
    simp [collisions] at hmem
  · simp [FileSystem.after]

end SecureKit.Cli
