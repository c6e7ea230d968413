import SecureKit.File.Agreement

/-!
# Calls get on

The results on runs and executions hold of all of them, and say nothing where there are none.  This
file provides some.  A call whose kernel answers as a file system would (`Regular`) makes all its
system calls there, beside whatever other files there are (`Regular.exists_unhindered`); so there are
runs of one call to its end, and executions of several calls in which one links its result and the
others are refused.

`Clear` is the invariant: the phase is true of the file system, the number the kernel gives to the
new file is free until the call creates it, and of the temporary names of the output only the one the
call has created is in use.  From it and from what the kernel answers to the link (`Awaits`) it
follows that the file system can give the next answer of the trace (`Suits`).  The call does nothing
to other files and names on the way (`Beside`), so that another call can follow.

`delivering` is a kernel of this kind, from which the witnesses of the results on file systems are
built.
-/

namespace SecureKit.File

open ByteString Iostream Evp Posix

/-! ## Where a call gets on -/

/-- The calls on the directory succeed, and a link fails only where the name exists. -/
def Dependable (_ : FileSystem) (e : Event) : Prop :=
  ¬ IsDirectoryCall false e ∧ ∀ source target, e ≠ .link source target .failed

/-- What has become of the temporary name. -/
def Stage.name : Stage → TempName
  | .discarded _ name | .linked _ name _ => name
  | _ => .pending

/-- The call has created the name, and not tried to remove it. -/
def Phase.Names (path : Path) : Phase → Prop
  | .owning temp _ stage => temp = path ∧ stage.name = .pending
  | _ => False

/-- The call can create the file `n`, or has created it. -/
structure Clear (call : PathCall) (n : ℕ) (φ : Phase) (fs : FileSystem) : Prop where
  holds : φ.Holds call fs
  fresh : ¬ φ.Owning n → fs.Fresh n
  names : ∀ path, IsTempPath call.output path → fs.entry path = none ∨ φ.Names path
  temp : ∀ temp file stage, φ = .owning temp file stage → IsTempPath call.output temp
  owner : ∀ m, φ.Owning m → m = n
  durable : ¬ φ.Undurable

/-- The answer is the one the file system gives, and where it could give a failure, it is none. -/
def Suits (n : ℕ) (fs : FileSystem) : Event → Prop
  | .status path answer => answer = some (fs.entry path).isSome
  | .openExclusive _ answer => answer = .created n
  | .link _ target answer => answer = if fs.entry target = none then .linked else .already_exists
  | .unlink _ ok | .openDirectory _ ok | .syncDirectory ok | .closeDirectory ok => ok = true
  | _ => True

/-- What the call does to the files and names of others, and to the numbers that are free: nothing. -/
structure Beside (call : PathCall) (n : ℕ) (fs fs' : FileSystem) : Prop where
  same : ∀ file, file ≠ n → fs.contents file ≠ none → FileSystem.Same file fs fs'
  fresh : ∀ m, m ≠ n → fs.Fresh m → fs'.Fresh m
  entry : ∀ path, path ≠ call.output → ¬ IsTempPath call.output path → fs'.entry path = fs.entry path

lemma Beside.refl (call : PathCall) (n : ℕ) (fs : FileSystem) : Beside call n fs fs :=
  ⟨fun file _ _ => .refl file fs, fun _ _ h => h, fun _ _ _ => rfl⟩

lemma Beside.trans {call : PathCall} {n : ℕ} {fs₁ fs₂ fs₃ : FileSystem}
    (h : Beside call n fs₁ fs₂) (h' : Beside call n fs₂ fs₃) : Beside call n fs₁ fs₃ := by
  refine ⟨fun file hne hexists => ?_, fun m hne hfresh => h'.fresh m hne (h.fresh m hne hfresh),
    fun path hne htemp => (h'.entry path hne htemp).trans (h.entry path hne htemp)⟩
  have hsame := h.same file hne hexists
  exact hsame.trans (h'.same file hne (by rwa [hsame.contents]))

section Steps

variable {call : PathCall} {φ ψ : Phase} {fs fs' : FileSystem} {e : Event} {n : ℕ} {path : Path}

/-- A call that has created nothing yet. -/
lemma clear_of_fresh (hφ : φ = .checking ∨ φ = .searching) (hfresh : fs.Fresh n)
    (hnames : ∀ path, IsTempPath call.output path → fs.entry path = none) : Clear call n φ fs := by
  have hnone : ∀ m, ¬ φ.Owning m := by
    rcases hφ with rfl | rfl <;> exact fun _ => id
  refine ⟨?_, fun _ => hfresh, fun path htemp => .inl (hnames path htemp), ?_, ?_, ?_⟩
  · rcases hφ with rfl | rfl <;> trivial
  · rintro temp file stage rfl
    exact absurd rfl (hnone file)
  · intro m howning
    exact absurd howning (hnone m)
  · rcases hφ with rfl | rfl <;> exact id

lemma Phase.Step.of_status {answer : Option Bool} (hstep : Phase.Step call φ (.status path answer) ψ) :
    φ = .checking ∧ path = call.output := by
  cases hstep with
  | checked | unchecked => exact ⟨rfl, rfl⟩
  | owning _ _ hstage =>
    cases hstage with
    | directory _ _ _ _ _ hcall => cases hcall

lemma Phase.Step.of_link {source : Path} {answer : Linking}
    (hstep : Phase.Step call φ (.link source path answer) ψ) :
    ¬ φ.Committed ∧ path = call.output := by
  cases hstep with
  | owning _ _ hstage =>
    cases hstage with
    | linked | refused | unlinkable => exact ⟨id, rfl⟩
    | directory _ _ _ _ _ hcall => cases hcall

lemma Suits.dependable (h : Suits n fs e) : Dependable fs e := by
  constructor
  · intro hcall
    cases hcall with
    | opened | synced | closed => cases h
  · rintro source target rfl
    simp only [Suits] at h
    split at h <;> cases h

/-- **The file system can give the answer.** -/
lemma Clear.possible (h : Clear call n φ fs) (hstep : Phase.Step call φ e ψ) (hsuits : Suits n fs e) :
    fs.Possible e := by
  cases hstep with
  | checked => exact Option.some.inj hsuits
  | unchecked answer =>
    cases answer with
    | none => trivial
    | some found => exact Option.some.inj hsuits
  -- The name is free and the file is new.
  | created temp m htemp =>
    obtain rfl : m = n := Creation.created.inj hsuits
    exact ⟨(h.names temp htemp).resolve_right id, h.fresh id⟩
  | taken => cases hsuits
  | failed => trivial
  | owning temp file hstage =>
    have howns : Owns call temp file _ fs := h.holds
    cases hstage with
    -- The answer of the link is the one that suits the output.
    | linked draft =>
      have hentry : fs.entry call.output = none := by
        by_contra hexists
        simp [Suits, hexists] at hsuits
      exact ⟨by simp [howns.named.mpr trivial], hentry⟩
    | refused draft =>
      intro hnone
      simp [Suits, hnone] at hsuits
    | directory draft name durable ok e hcall => cases hcall <;> trivial
    | opened | orphaned | closeDescriptor | openInput | written | unwritten | flushed | unflushed
    | synced | unsynced | closed | unclosed | abandon | giveUp | unlinkable | drop | remove => trivial

/-- A call changes no entries but that of its output and that of its temporary name. -/
lemma Phase.Step.entry_eq (hstep : Phase.Step call φ e ψ) (houtput : path ≠ call.output)
    (htemp : ∀ temp file stage, ψ = .owning temp file stage → path ≠ temp) :
    (fs.after e).entry path = fs.entry path := by
  cases hstep with
  | checked | unchecked | taken | failed => exact rfl
  | created temp file _ => exact Function.update_of_ne (htemp temp file _ rfl) _ _
  | owning temp file hstage =>
    have hne := htemp temp file _ rfl
    cases hstage with
    | opened | orphaned | closeDescriptor | openInput | synced | unsynced | refused | unlinkable =>
      exact rfl
    | written | unwritten | flushed | unflushed | closed | unclosed | abandon | giveUp =>
      exact congrFun (fs.entry_transfer _ _ _) path
    | linked draft => exact Function.update_of_ne houtput _ _
    | drop _ ok | remove _ _ _ ok =>
      cases ok with
      | false => exact rfl
      | true => exact Function.update_of_ne hne _ _
    | directory draft name durable ok e hcall => cases hcall <;> exact rfl

/-- Of the temporary names only the one the call has created is in use. -/
lemma Clear.names_step (h : Clear call n φ fs) (hstep : Phase.Step call φ e ψ)
    (hsuits : Suits n fs e) (hpath : IsTempPath call.output path) :
    (fs.after e).entry path = none ∨ ψ.Names path := by
  by_cases hown : ∃ file stage, ψ = .owning path file stage
  · obtain ⟨file, stage, rfl⟩ := hown
    cases hstep with
    | created => exact .inr ⟨rfl, rfl⟩
    | owning _ _ hstage =>
      cases hstage with
      | drop refused ok | remove _ _ _ ok =>
        -- The name is removed.
        obtain rfl : ok = true := hsuits
        exact .inl (Function.update_self _ _ _)
      | directory draft name durable ok e hcall =>
        have hentry : (fs.after e).entry path = fs.entry path := by cases hcall <;> exact rfl
        rw [hentry]
        exact h.names path hpath
      | opened | orphaned | closeDescriptor | openInput | written | unwritten | flushed | unflushed
      | synced | unsynced | closed | unclosed | abandon | giveUp | linked | refused | unlinkable =>
        exact .inr ⟨rfl, rfl⟩
  · have hentry : (fs.after e).entry path = fs.entry path := by
      apply hstep.entry_eq hpath.ne
      rintro temp file stage hψ rfl
      exact hown ⟨file, stage, hψ⟩
    rw [hentry]
    rcases h.names path hpath with hnone | hnames
    · exact .inl hnone
    · -- The call has the same name before and behind the step.
      cases hstep with
      | checked | unchecked | created | taken | failed => exact hnames.elim
      | owning temp file hstage =>
        obtain rfl : temp = path := hnames.1
        exact absurd ⟨file, _, rfl⟩ hown

/-- **The steps of the call keep the invariant.** -/
lemma Clear.step (h : Clear call n φ fs) (hstep : Phase.Step call φ e ψ) (hsuits : Suits n fs e) :
    Clear call n ψ (fs.after e) := by
  have howner : ∀ m, ψ.Owning m → m = n := by
    intro m howning
    rcases howning.of_step hstep with hbefore | ⟨temp, rfl⟩
    · exact h.owner m hbefore
    · exact Creation.created.inj hsuits
  refine ⟨h.holds.step (h.possible hstep hsuits) hstep, fun hnot => ?_,
    fun path hpath => h.names_step hstep hsuits hpath, ?_, howner, fun hundurable => ?_⟩
  · cases hstep with
    | checked | unchecked | taken | failed => exact h.fresh id
    | created temp m htemp => exact absurd (Creation.created.inj hsuits) hnot
    | owning temp file hstage => exact absurd (howner file rfl) hnot
  · rintro temp file stage rfl
    cases hstep with
    | created _ _ htemp => exact htemp
    | owning _ _ hstage => exact h.temp temp file _ rfl
  · rcases hundurable.of_step hstep with hbefore | ⟨-, hcall⟩
    · exact h.durable hbefore
    · exact hsuits.dependable.1 hcall

lemma Clear.beside (h : Clear call n φ fs) (hstep : Phase.Step call φ e ψ) (hsuits : Suits n fs e) :
    Beside call n fs (fs.after e) := by
  have hpossible := h.possible hstep hsuits
  have huntouched : ∀ m, m ≠ n → ¬ fs.Touches e m := by
    intro m hne htouches
    exact hne (h.owner m (h.holds.touches hstep h.durable htouches))
  refine ⟨fun file hne hexists => FileSystem.frame hpossible (huntouched file hne) hexists,
    fun m hne hfresh => hfresh.after (huntouched m hne) ?_ ?_, fun path houtput htemp => ?_⟩
  · rintro temp rfl
    exact hne (Creation.created.inj hsuits)
  · rintro temp rfl
    cases hstep with
    | owning _ _ hstage =>
      cases hstage with
      | directory _ _ _ _ _ hcall => cases hcall
  · apply hstep.entry_eq houtput
    rintro temp file stage hψ rfl
    exact htemp ((h.step hstep hsuits).temp path file stage hψ)

/-! ## What the kernel answers -/

/-- No call fails, the output does not exist, the new file gets the number `n`, and the link is
answered by `answer`. -/
structure Regular (kernel : Kernel) (n : ℕ) (output : Path) (answer : Linking) : Prop where
  status : ∀ t, kernel.status t output = some false
  openExclusive : ∀ t path, kernel.openExclusive t path = .created n
  link : ∀ t temp, kernel.link t temp output = answer
  unlink : ∀ t path, kernel.unlink t path = true
  openDirectory : ∀ t path, kernel.openDirectory t path = true
  syncDirectory : ∀ t, kernel.syncDirectory t = true
  closeDirectory : ∀ t, kernel.closeDirectory t = true

/-- What the output has to be for the link to be answered so. -/
def Awaits (call : PathCall) (φ : Phase) (fs : FileSystem) : Linking → Prop
  | .linked => ¬ φ.Committed → fs.entry call.output = none
  | .already_exists => φ ≠ .checking ∧ fs.entry call.output ≠ none
  | .failed => False

variable {kernel : Kernel} {answer : Linking} {rest : List Event}
  {admits : FileSystem → Event → Prop}

lemma Awaits.step (h : Awaits call φ fs answer) (hclear : Clear call n φ fs)
    (hstep : Phase.Step call φ e ψ) (hsuits : Suits n fs e) : Awaits call ψ (fs.after e) answer := by
  have hunchanged := hclear.holds.unchanged (hclear.possible hstep hsuits) hstep
  cases answer with
  | failed => exact h.elim
  | linked =>
    intro hnot
    rcases hunchanged with hsame | ⟨-, hcommitted, -⟩
    · rw [hsame.entry]
      exact h fun hcommitted => hnot (hcommitted.step hstep)
    · exact absurd hcommitted hnot
  | already_exists =>
    refine ⟨?_, ?_⟩
    · rintro rfl
      cases hstep
    · rcases hunchanged with hsame | ⟨-, -, hnone⟩
      · rw [hsame.entry]
        exact h.2
      · exact absurd hnone h.2

/-- **The answers suit the file system.** -/
lemma Regular.suits (hk : Regular kernel n call.output answer) (hawaits : Awaits call φ fs answer)
    (hstep : Phase.Step call φ e ψ) (hanswered : AnsweredBy kernel e) : Suits n fs e := by
  cases hanswered with
  | fdopen | closeDescriptor | openInput | fwrite | fflush | fsync | fclose => trivial
  | openExclusive t path => exact hk.openExclusive t path
  | unlink t path => exact hk.unlink t path
  | openDirectory t path => exact hk.openDirectory t path
  | syncDirectory t => exact hk.syncDirectory t
  | closeDirectory t => exact hk.closeDirectory t
  | status t path =>
    obtain ⟨rfl, rfl⟩ := hstep.of_status
    have hentry : fs.entry call.output = none := by
      cases answer with
      | linked => exact hawaits id
      | already_exists => exact absurd rfl hawaits.1
      | failed => exact hawaits.elim
    simp [Suits, hk.status, hentry]
  | link t source target =>
    obtain ⟨hnot, rfl⟩ := hstep.of_link
    cases answer with
    | linked => simp [Suits, hk.link, hawaits hnot]
    | already_exists => simp [Suits, hk.link, hawaits.2]
    | failed => exact hawaits.elim

/-- **A call gets on**: it makes the rest of its calls, one after the other. -/
theorem Regular.exists_unhindered (hk : Regular kernel n call.output answer)
    (hclear : Clear call n φ fs) (hawaits : Awaits call φ fs answer)
    (haccepts : rest.foldlM (Phase.next call) φ = some ψ)
    (hanswered : ∀ e ∈ rest, AnsweredBy kernel e)
    (hadmits : ∀ fs' e, e ∈ rest → Beside call n fs fs' → Dependable fs' e → admits fs' e) :
    ∃ fs', Unhindered admits fs rest fs' ∧ Clear call n ψ fs' ∧ Beside call n fs fs' := by
  induction rest generalizing fs φ with
  | nil =>
    obtain rfl := Option.some.inj haccepts
    exact ⟨fs, .nil fs, hclear, .refl call n fs⟩
  | cons e rest ih =>
    obtain ⟨χ, hnext, hrest⟩ := Option.bind_eq_some_iff.mp haccepts
    have hstep := Phase.step_of_next hnext
    have hsuits := hk.suits hawaits hstep (hanswered e List.mem_cons_self)
    have hbeside := hclear.beside hstep hsuits
    obtain ⟨fs', hrun, hclear', hbeside'⟩ := ih (hclear.step hstep hsuits)
      (hawaits.step hclear hstep hsuits) hrest
      (fun e' hmem => hanswered e' (List.mem_cons_of_mem e hmem))
      fun fs' e' hmem hlater => hadmits fs' e' (List.mem_cons_of_mem e hmem) (hbeside.trans hlater)
    refine ⟨fs', .cons (hclear.possible hstep hsuits) ?_ hrun, hclear', hbeside.trans hbeside'⟩
    exact hadmits fs e List.mem_cons_self (.refl call n fs) hsuits.dependable

/-- Behind a commit no temporary name is left. -/
lemma Clear.entry_eq_none {P : Source → Bytes → Prop} {thrown : Option Error}
    (h : Clear call n φ fs) (hend : call.EndsIn P φ thrown) (hcommitted : φ.Committed)
    (hpath : IsTempPath call.output path) : fs.entry path = none := by
  cases hend with
  | checking | searching | ended | orphaned | discarded => exact hcommitted.elim
  | linked temp file draft hdraft name hname durable thrown hthrown =>
    exact (h.names path hpath).resolve_right fun hnames => hname hnames.2

end Steps

/-! ## Whole calls -/

/-- The call has committed the text in the file `n`, and its temporary name is gone. -/
structure Complete (call : PathCall) (n : ℕ) (text : Bytes) (fs : FileSystem) : Prop where
  entry : fs.entry call.output = some n
  contents : fs.contents n = some text
  names : ∀ path, IsTempPath call.output path → fs.entry path = none

section Calls

variable {call : PathCall} {ssl : Openssl} {prim : Primitives} {kernel : Kernel} {lib : Lib}
  {b text : Bytes} {fs : FileSystem} {n : ℕ}

/-- A call that returns has linked its result. -/
lemma exists_linked_of_returns (h : call.thrown ssl kernel lib = none) :
    ∃ temp, .link temp call.output .linked ∈ call.trace ssl kernel lib := by
  obtain ⟨ψ, haccepts, hend⟩ := call.exists_endsIn ssl kernel lib bodyFills_any
  rw [← committed_iff_link haccepts]
  by_contra hnot
  exact hend.thrown_ne_none hnot h

lemma Regular.faultless {input output : Path} (hk : Regular kernel n output .linked)
    (hp : Preparing kernel input output b) : Faultless kernel input output b where
  toPreparing := hp
  link := hk.link
  openDirectory := hk.openDirectory
  syncDirectory := hk.syncDirectory
  closeDirectory := hk.closeDirectory

/-- **A call comes to its end**, where its output does not exist: it commits its result. -/
theorem Regular.exists_complete {admits : FileSystem → Event → Prop}
    (hk : Regular kernel n call.output .linked) (hp : Preparing kernel call.input call.output b)
    (ha : ssl.Available prim (2 ^ 20))
    (hgives : call.operation.PayloadGives ssl call.aad b lib (.ok text)) (hfresh : fs.Fresh n)
    (houtput : fs.entry call.output = none)
    (hnames : ∀ path, IsTempPath call.output path → fs.entry path = none)
    (hadmits : ∀ fs' e, e ∈ call.trace ssl kernel lib → Beside call n fs fs' → Dependable fs' e →
      admits fs' e) :
    ∃ fs', Unhindered admits fs (call.trace ssl kernel lib) fs' ∧ Complete call n text fs' ∧
      Beside call n fs fs' := by
  obtain ⟨ψ, haccepts, hend⟩ := call.exists_endsIn ssl kernel lib bodyFills_any
  obtain ⟨fs', hrun, hclear, hbeside⟩ := hk.exists_unhindered
    (clear_of_fresh (.inl rfl) hfresh hnames) (fun _ => houtput) haccepts
    (call.answered ssl kernel lib) hadmits
  have hpath : PathGives call ssl kernel lib fs (.ok text) := (hk.faultless hp).pathGives ha hgives
  obtain ⟨hthrown, hresult⟩ := hpath.returns text rfl
  have hcommitted : ψ.Committed :=
    (committed_iff_link haccepts).mpr (exists_linked_of_returns hthrown)
  obtain ⟨file, hentry, hcontents⟩ := hresult fs' (hrun.mono fun _ _ _ => trivial).running
  obtain ⟨m, howning, hm⟩ := hclear.holds.exists_output hcommitted
  obtain rfl : m = n := hclear.owner m howning
  obtain rfl : file = m := Option.some.inj (hentry.symm.trans hm)
  exact ⟨fs', hrun, ⟨hentry, hcontents, fun path => hclear.entry_eq_none hend hcommitted⟩, hbeside⟩

/-- A call starts with the check of its output. -/
lemma Regular.exists_status {answer : Linking} {ψ : Phase} (hk : Regular kernel n call.output answer)
    (haccepts : phaseAfter call (call.trace ssl kernel lib) = some ψ)
    (hne : call.trace ssl kernel lib ≠ []) :
    ∃ rest, call.trace ssl kernel lib = .status call.output (some false) :: rest ∧
      rest.foldlM (Phase.next call) .searching = some ψ := by
  have hanswered := call.answered ssl kernel lib
  obtain ⟨e, rest, htrace⟩ := List.exists_cons_of_ne_nil hne
  rw [htrace] at haccepts hanswered
  obtain ⟨χ, hnext, hrest⟩ := Option.bind_eq_some_iff.mp haccepts
  have he := hanswered e List.mem_cons_self
  have hevent : e = .status call.output (some false) := by
    cases Phase.step_of_next hnext with
    | checked => rfl
    | unchecked answer =>
      cases he with
      | status t => rw [hk.status]
  subst hevent
  have hsearching : χ = .searching := by
    simpa [Phase.next] using hnext.symm
  exact ⟨rest, htrace, hsearching ▸ hrest⟩

/-- **A call that finds the output taken** when it has its result comes to its end as well: it asks
for the link in vain. -/
theorem Regular.exists_refused (hk : Regular kernel n call.output .already_exists)
    (hp : Preparing kernel call.input call.output b) (ha : ssl.Available prim (2 ^ 20))
    (hgives : call.operation.PayloadGives ssl call.aad b lib (.ok text)) :
    ∃ rest temp, call.trace ssl kernel lib = .status call.output (some false) :: rest ∧
      .link temp call.output .already_exists ∈ rest ∧
      ∀ fs, fs.Fresh n → fs.entry call.output ≠ none →
        (∀ path, IsTempPath call.output path → fs.entry path = none) →
        ∃ fs', Unhindered Dependable fs rest fs' ∧ Beside call n fs fs' := by
  obtain ⟨ψ, haccepts, -⟩ := call.exists_endsIn ssl kernel lib bodyFills_any
  have hanswered := call.answered ssl kernel lib
  obtain ⟨temp, answer, hlink⟩ := hp.exists_link ha hgives
  obtain ⟨rest, htrace, hrest⟩ := hk.exists_status haccepts (List.ne_nil_of_mem hlink)
  have hanswer : answer = .already_exists := by
    cases hanswered _ hlink with
    | link t => exact hk.link t temp
  rw [htrace] at hanswered hlink
  refine ⟨rest, temp, htrace, ?_, fun fs hfresh hexists hnames => ?_⟩
  · rw [hanswer] at hlink
    simpa using hlink
  · obtain ⟨fs', hrun, -, hbeside⟩ := hk.exists_unhindered (clear_of_fresh (.inr rfl) hfresh hnames)
      ⟨nofun, hexists⟩ hrest (fun e hmem => hanswered e (List.mem_cons_of_mem _ hmem))
      fun _ _ _ _ hdependable => hdependable
    exact ⟨fs', hrun, hbeside⟩

/-- What is sealed is opened again, by the overloads as well. -/
lemma RoundTrips.exists_payloadGives {sealing opening : Operation} {aad plaintext : Bytes}
    (h : RoundTrips (sealing.onStreams ssl aad) (opening.onStreams ssl aad) plaintext)
    (hs : ssl.Sound prim) (ha : ssl.Available prim (2 ^ 20)) (hl : prim.gcm.Lengths) (lib : Lib) :
    ∃ text, sealing.PayloadGives ssl aad plaintext lib (.ok text) ∧
      opening.PayloadGives ssl aad text lib (.ok plaintext) := by
  obtain ⟨text, w₁, w₂, hseal, hsealed, hopen, hopened⟩ := h lib lib {} {} ⟨rfl, rfl⟩ ⟨rfl, rfl⟩
  obtain ⟨v, hv⟩ := sealing.exists_payloadGives hs ha hl plaintext aad lib
  obtain ⟨v', hv'⟩ := opening.exists_payloadGives hs ha hl text aad lib
  refine ⟨text, ?_, ?_⟩
  · rw [← (hv lib rfl).onStreams.eq_ok ⟨rfl, rfl⟩ hseal hsealed]
    exact hv lib rfl
  · rw [← (hv' lib rfl).onStreams.eq_ok ⟨rfl, rfl⟩ hopen hopened]
    exact hv' lib rfl

end Calls

/-! ## Sample systems -/

/-- A file system without files. -/
def noFiles : FileSystem := ⟨fun _ => none, fun _ => none, fun _ => none⟩

lemma noFiles_fresh (n : ℕ) : noFiles.Fresh n := ⟨rfl, rfl, nofun⟩

/-- A system on which the input cannot be opened. -/
def withoutInput (fdopen : Bool) : Kernel where
  status _ _ := some false
  openExclusive _ _ := .created 0
  fdopen _ _ := fdopen
  openTruncated _ _ := some 0
  openInput _ _ := none
  fwrite _ _ data := (data.length, data.length)
  fflush _ _ := (true, 0)
  fsync _ _ := true
  fclose _ _ := (true, 0)
  link _ _ _ := .linked
  unlink _ _ := true
  openDirectory _ _ := true
  syncDirectory _ := true
  closeDirectory _ := true

/-- A system on which every input holds `b`, the new file gets the number `n`, and nothing fails but
the link, if `answer` says so. -/
def delivering (n : ℕ) (answer : Linking) (b : Bytes) : Kernel :=
  { withoutInput true with
    openInput := fun _ _ => some (.finite b .eof)
    openExclusive := fun _ _ => .created n
    link := fun _ _ _ => answer }

variable (n : ℕ) (answer : Linking) (b : Bytes)

lemma regular_delivering (output : Path) : Regular (delivering n answer b) n output answer where
  status _ := rfl
  openExclusive _ _ := rfl
  link _ _ := rfl
  unlink _ _ := rfl
  openDirectory _ _ := rfl
  syncDirectory _ := rfl
  closeDirectory _ := rfl

lemma preparing_delivering (input output : Path) :
    Preparing (delivering n answer b) input output b where
  status _ := rfl
  openInput _ := rfl
  openExclusive _ _ := by simp [delivering]
  free := ⟨1, le_rfl, by decide, fun _ => by simp [delivering]⟩
  fdopen _ _ := rfl
  fwrite _ _ _ := rfl
  fflush _ _ := rfl
  fsync _ _ := rfl
  fclose _ _ := rfl

lemma faultless_delivering (input output : Path) :
    Faultless (delivering n .linked b) input output b :=
  (regular_delivering n .linked b output).faultless (preparing_delivering n .linked b input output)

/-- A call that seals the file `i` into `o`. -/
def sealSample : PathCall := ⟨.seal_file (ByteArr.zeros 32), [0x69], [0x6f], []⟩

/-- A call that opens the file `i` into `o`. -/
def openSample : PathCall := ⟨.open_file (ByteArr.zeros 32), [0x69], [0x6f], []⟩

/-- The byte `a`, sealed under an all-zero key, and opened again. -/
lemma exists_payloadGives_sample (aad : Bytes) (hle : aad.length ≤ 1000) : ∃ text,
    (Operation.seal_file (ByteArr.zeros 32)).PayloadGives standardLibrary aad [0x61] {} (.ok text) ∧
    (Operation.open_file (ByteArr.zeros 32)).PayloadGives standardLibrary aad text {} (.ok [0x61]) := by
  let law := keyFormatLawful standardLibrary_sound (2 ^ 20) (ByteArr.zeros 32)
  have haad : kHeaderSize + kRecordHeaderSize + aad.length ≤ intMax := by
    have hsizes : kHeaderSize + kRecordHeaderSize + 1000 ≤ intMax := by decide
    omega
  have hround : RoundTrips ((Operation.seal_file (ByteArr.zeros 32)).onStreams standardLibrary aad)
      ((Operation.open_file (ByteArr.zeros 32)).onStreams standardLibrary aad) [0x61] :=
    roundTrips_of_lawful law law standardLibrary_sound standardLibrary_sound
      (standardLibrary_available _) (standardLibrary_available _) standard_lengths
      standard_exact.correct le_rfl (by decide) rfl (fun _ _ => rfl) haad
  exact hround.exists_payloadGives standardLibrary_sound (standardLibrary_available _) standard_lengths {}

end SecureKit.File
