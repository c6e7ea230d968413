import SecureKit.File.AllOrNothing

/-!
# Calls that run at the same time

Any number of calls of the path overloads with the same output path share a file system with each
other and with processes that create files.  The existence check at the start of a call protects
nothing; that no call overwrites what another one has written follows from the exclusive creation of
the temporary files and from the link (`paths_noOverwrite`).

`Together` is the invariant: every phase is true of the file system, and no two calls own the same
file.  A call touches its own file only (`Phase.Holds.touches`), so by the frame rule its steps keep
what the others own.  That fails behind a failed call on the directory, where the temporary name is
removed a second time; hence the assumption that these calls succeed (`Dependable`).

Two calls do come into each other's way: `exists_conflict` is an execution in which one call links its
result between the existence check of another one and its link.

## The execution

An `Execution` interleaves the traces of the callers, each with the kernel's answers to it, with
other processes that create files.  Every event must be possible in the file system it meets, so an
answer such as `EEXIST` is the truth.  `phaseAfter` reads off the events of a caller how far it has
come and what it owns.

`NoOverwrite` lists what follows for callers with one output: an output that exists is kept, at most
one caller links, the output then has the complete result of this caller, and any other one that
comes to its link throws that the file exists.  What is written to or unlinked on the way belongs
to the caller that does it.

`Dependable` is asked of the calls on directories and of links: they succeed, except that a link may
find its target there.  The trace of a caller has the answers it was given, so this excludes runs and does
not change what the callers do.

`paths_noOverwrite_sample` is an execution of `exists_conflict`: two callers with files of their
own, one linked and the other one refused.
-/

namespace SecureKit.File

open ByteString Posix Evp

/-! ## Callers -/

/-- A call, with the library it uses and the answers it gets from the system. -/
structure Caller where
  call : PathCall
  ssl : Openssl
  kernel : Kernel
  lib : Lib

def Caller.trace (c : Caller) : List Event := c.call.trace c.ssl c.kernel c.lib

def Caller.thrown (c : Caller) : Option Error := c.call.thrown c.ssl c.kernel c.lib

/-- Every caller is where its phase says, and none owns the file of another one. -/
structure Together {ι : Type} (callers : ι → Caller) (fs : FileSystem) (s : ι → Phase) : Prop where
  holds : ∀ i, (s i).Holds (callers i).call fs
  durable : ∀ i, ¬ (s i).Undurable
  distinct : ∀ i j n, (s i).Owning n → (s j).Owning n → i = j

section Callers

variable {ι : Type} [DecidableEq ι] {callers : ι → Caller} {fs₀ fs fs' : FileSystem} {s : ι → Phase}
  {done : ι → List Event} {e : Event} {i : ι} {ψ : Phase}

/-- **The steps of a caller keep the others' files.** -/
theorem Together.step (h : Together callers fs s) (hpossible : fs.Possible e)
    (hdependable : Dependable fs e) (hstep : Phase.Step (callers i).call (s i) e ψ) :
    Together callers (fs.after e) (Function.update s i ψ) := by
  have hothers : ∀ j n, j ≠ i → (s j).Owning n → ¬ fs.Touches e n := by
    intro j n hne howning htouches
    exact hne (h.distinct j i n howning ((h.holds i).touches hstep (h.durable i) htouches))
  -- What is created was no file before.
  have hnew : ∀ j n, j ≠ i → ψ.Owning n → ¬ (s j).Owning n := by
    intro j n hne howning hother
    rcases howning.of_step hstep with hbefore | ⟨temp, rfl⟩
    · exact hne (h.distinct j i n hother hbefore)
    · exact (h.holds j).contents_ne_none hother hpossible.2.contents
  constructor
  · intro j
    by_cases hj : j = i
    · subst hj
      rw [Function.update_self]
      exact (h.holds j).step hpossible hstep
    · rw [Function.update_of_ne hj]
      apply (h.holds j).of_same
      intro n howning
      exact FileSystem.frame hpossible (hothers j n hj howning)
        ((h.holds j).contents_ne_none howning)
  · intro j
    by_cases hj : j = i
    · subst hj
      rw [Function.update_self]
      intro hundurable
      rcases hundurable.of_step hstep with hbefore | ⟨-, hcall⟩
      · exact h.durable j hbefore
      · exact hdependable.1 hcall
    · rw [Function.update_of_ne hj]
      exact h.durable j
  · intro j k n hjn hkn
    by_cases hj : j = i
    · by_cases hk : k = i
      · rw [hj, hk]
      · subst hj
        rw [Function.update_self] at hjn
        rw [Function.update_of_ne hk] at hkn
        exact absurd hkn (hnew k n hk hjn)
    · rw [Function.update_of_ne hj] at hjn
      by_cases hk : k = i
      · subst hk
        rw [Function.update_self] at hkn
        exact absurd hjn (hnew j n hj hkn)
      · rw [Function.update_of_ne hk] at hkn
        exact h.distinct j k n hjn hkn

/-- **In every interleaving** the callers keep out of each other's way. -/
theorem exists_together
    (h : Execution Dependable (fun i => (callers i).trace) fs₀ fs done) :
    ∃ s, (∀ i, phaseAfter (callers i).call (done i) = some (s i)) ∧ Together callers fs s := by
  apply Execution.invariant (I := Together callers) _ _ _ _ h
  · exact ⟨fun _ => trivial, fun _ => id, fun _ _ _ hfalse => hfalse.elim⟩
  · intro i
    obtain ⟨ψ, haccepts, -⟩ := (callers i).call.exists_endsIn (callers i).ssl (callers i).kernel
      (callers i).lib bodyFills_any
    exact ⟨ψ, haccepts⟩
  · intro fs s i e t htogether hpossible hdependable _ hnext
    exact htogether.step hpossible hdependable (Phase.step_of_next hnext)
  · intro fs fs' s htogether hcreates
    exact ⟨fun i => (htogether.holds i).of_creates hcreates, htogether.durable, htogether.distinct⟩

end Callers

/-! ## No overwrite -/

/-- A caller takes a step in an execution. -/
structure CallerStep {ι : Type} [DecidableEq ι] (callers : ι → Caller) (fs₀ fs : FileSystem)
    (done : ι → List Event) (i : ι) (e : Event) : Prop where
  run : Execution Dependable (fun i => (callers i).trace) fs₀ fs done
  next : done i ++ [e] <+: (callers i).trace
  possible : fs.Possible e
  dependable : Dependable fs e

/-- What callers with the same output do to it and to their temporary files. -/
structure NoOverwrite {ι : Type} [DecidableEq ι] (callers : ι → Caller) (output : Path)
    (prim : Primitives) (fs₀ : FileSystem) : Prop where
  /-- Once the output exists, no caller changes or removes it. -/
  kept : ∀ {fs done i e}, CallerStep callers fs₀ fs done i e → fs.entry output ≠ none →
    Unchanged output fs (fs.after e)
  /-- At most one caller links its result to the output. -/
  once : ∀ {fs done i j source source'},
    Execution Dependable (fun i => (callers i).trace) fs₀ fs done →
    .link source output .linked ∈ done i → .link source' output .linked ∈ done j → i = j
  /-- From then on the output holds the complete result of this caller. -/
  complete : ∀ {fs done i source}, Execution Dependable (fun i => (callers i).trace) fs₀ fs done →
    .link source output .linked ∈ done i → ∃ file input bytes, fs.entry output = some file ∧
      fs.contents file = some bytes ∧
      .openInput (callers i).call.input (some input) ∈ (callers i).trace ∧
      (callers i).call.Yields prim input bytes
  /-- Any other caller that comes to the commit throws `invalid_input`. -/
  refused : ∀ {fs done i source answer},
    Execution Dependable (fun i => (callers i).trace) fs₀ fs done →
    .link source output answer ∈ done i → answer ≠ .linked →
    (callers i).thrown = some ⟨.invalid_input, "Output file already exists"⟩
  /-- What a caller touches is a file it has created. -/
  touched : ∀ {fs done i e file}, CallerStep callers fs₀ fs done i e → fs.Touches e file →
    ∃ temp, .openExclusive temp (.created file) ∈ done i
  /-- No two callers create the same file. -/
  created : ∀ {fs done i j temp temp' file},
    Execution Dependable (fun i => (callers i).trace) fs₀ fs done →
    .openExclusive temp (.created file) ∈ done i → .openExclusive temp' (.created file) ∈ done j → i = j

/-- The phases behind a step. -/
lemma CallerStep.exists_step {ι : Type} [DecidableEq ι] {callers : ι → Caller}
    {fs₀ fs : FileSystem} {done : ι → List Event} {i : ι} {e : Event}
    (h : CallerStep callers fs₀ fs done i e) :
    ∃ s ψ, phaseAfter (callers i).call (done i) = some (s i) ∧ Together callers fs s ∧
      Phase.Step (callers i).call (s i) e ψ := by
  obtain ⟨s, hs, htogether⟩ := exists_together h.run
  obtain ⟨ψ, haccepts, -⟩ := (callers i).call.exists_endsIn (callers i).ssl (callers i).kernel
    (callers i).lib bodyFills_any
  obtain ⟨rest, hrest⟩ := h.next
  change phaseAfter (callers i).call (callers i).trace = some ψ at haccepts
  rw [← hrest] at haccepts
  obtain ⟨χ, hχ, -⟩ := foldlM_append_iff.mp haccepts
  obtain ⟨φ, hφ, hnext⟩ := foldlM_concat_iff.mp hχ
  obtain rfl : s i = φ := Option.some.inj ((hs i).symm.trans hφ)
  exact ⟨s, χ, hs i, htogether, Phase.step_of_next hnext⟩

/-- **Calls that run at the same time do not overwrite each other's results.** -/
theorem paths_noOverwrite {ι : Type} [DecidableEq ι] (callers : ι → Caller) (output : Path)
    {prim : Primitives} (houtput : ∀ i, (callers i).call.output = output)
    (hs : ∀ i, (callers i).ssl.Sound prim) (hl : prim.gcm.Lengths) (fs₀ : FileSystem) :
    NoOverwrite callers output prim fs₀ := by
  constructor
  · -- `kept`: a step changes the output only by linking it, and a link needs a free name.
    intro fs done i e hstep hexists
    obtain ⟨s, ψ, -, htogether, hphase⟩ := hstep.exists_step
    rw [← houtput i] at hexists ⊢
    rcases (htogether.holds i).unchanged hstep.possible hphase with hsame | ⟨-, -, hnone⟩
    · exact hsame
    · exact absurd hnone hexists
  · -- `once`: who has linked owns the file there, and a file has one owner.
    intro fs done i j source source' hrun hi hj
    obtain ⟨s, hphases, htogether⟩ := exists_together hrun
    have howner : ∀ k temp, .link temp output .linked ∈ done k →
        ∃ n, (s k).Owning n ∧ fs.entry output = some n := by
      intro k temp hlink
      rw [← houtput k] at hlink ⊢
      exact (htogether.holds k).exists_output ((committed_iff_link (hphases k)).mpr ⟨temp, hlink⟩)
    obtain ⟨n, hin, hn⟩ := howner i source hi
    obtain ⟨m, hjm, hm⟩ := howner j source' hj
    obtain rfl : n = m := Option.some.inj (hn.symm.trans hm)
    exact htogether.distinct i j n hin hjm
  · -- `complete`: the linked file was closed with all of the result in it.
    intro fs done i source hrun hlink
    obtain ⟨s, hphases, htogether⟩ := exists_together hrun
    rw [← houtput i] at hlink ⊢
    have hcommitted : (s i).Committed := (committed_iff_link (hphases i)).mpr ⟨source, hlink⟩
    obtain ⟨ψ, haccepts, hend⟩ := (callers i).call.exists_endsIn (callers i).ssl (callers i).kernel
      (callers i).lib (bodyFills_yields (hs i) hl)
    obtain ⟨file, input, bytes, hentry, hcontents, hinput, hyields⟩ := committed_complete haccepts
      hend (hrun.done_prefix i) (hphases i) hcommitted (htogether.holds i)
    exact ⟨file, input, bytes, hentry, hcontents, (hrun.done_prefix i).subset hinput, hyields⟩
  · -- `refused`: a dependable link fails with `EEXIST` only.
    intro fs done i source answer hrun hlink hanswer
    obtain ⟨fs', -, hadmits⟩ := hrun.exists_admits hlink
    have hexists : answer = .already_exists := by
      cases answer with
      | linked => exact absurd rfl hanswer
      | already_exists => rfl
      | failed => exact absurd rfl (hadmits source output)
    obtain ⟨ψ, haccepts, hend⟩ := (callers i).call.exists_endsIn (callers i).ssl (callers i).kernel
      (callers i).lib bodyFills_any
    have hmem : .link source (callers i).call.output answer ∈ (callers i).trace := by
      rw [houtput i]
      exact (hrun.done_prefix i).subset hlink
    obtain ⟨file, name, rfl⟩ := exists_discarded_of_link haccepts hmem hanswer
    rw [hexists] at hend
    exact hend.thrown_of_refused
  · -- `touched`: a caller writes to and unlinks what it has created.
    intro fs done i e file hstep htouches
    obtain ⟨s, ψ, hphases, htogether, hphase⟩ := hstep.exists_step
    have howning := (htogether.holds i).touches hphase (htogether.durable i) htouches
    exact howning.exists_created hphases
  · -- `created`: the kernel never gives one file to two callers.
    intro fs done i j temp temp' file hrun hi hj
    obtain ⟨s, hphases, htogether⟩ := exists_together hrun
    obtain ⟨stage, hsi⟩ := (created_mem_iff (hphases i) temp file).mp hi
    obtain ⟨stage', hsj⟩ := (created_mem_iff (hphases j) temp' file).mp hj
    apply htogether.distinct i j file
    · rw [hsi]
      exact rfl
    · rw [hsj]
      exact rfl

/-! ## A conflict -/

/-- The caller comes to its link with the result `text` in the file `n`, and is answered so. -/
structure Caller.Delivers (c : Caller) (n : ℕ) (answer : Linking) (text : Bytes) : Prop where
  regular : Regular c.kernel n c.call.output answer
  prepared : ∃ b, Preparing c.kernel c.call.input c.call.output b ∧
    c.call.operation.PayloadGives c.ssl c.call.aad b c.lib (.ok text)
  available : ∃ prim, c.ssl.Available prim (2 ^ 20)

/-- Nobody uses the output yet, nor a temporary name of it. -/
structure Unused (output : Path) (fs : FileSystem) : Prop where
  entry : fs.entry output = none
  names : ∀ path, IsTempPath output path → fs.entry path = none

lemma unused_noFiles (output : Path) : Unused output noFiles := ⟨rfl, fun _ _ => rfl⟩

/-- A caller that nobody disturbs gets its result to the output. -/
lemma Caller.Delivers.exists_complete {c : Caller} {n : ℕ} {text : Bytes} {fs : FileSystem}
    {admits : FileSystem → Event → Prop} (h : c.Delivers n .linked text) (hfresh : fs.Fresh n)
    (hunused : Unused c.call.output fs)
    (hadmits : ∀ fs' e, e ∈ c.trace → Beside c.call n fs fs' → Dependable fs' e → admits fs' e) :
    ∃ fs', Unhindered admits fs c.trace fs' ∧ Complete c.call n text fs' ∧ Beside c.call n fs fs' := by
  obtain ⟨b, hp, hgives⟩ := h.prepared
  obtain ⟨prim, ha⟩ := h.available
  exact h.regular.exists_complete hp ha hgives hfresh hunused.entry hunused.names hadmits

/-- It has linked its result, and returns. -/
lemma Caller.Delivers.exists_linked {c : Caller} {n : ℕ} {text : Bytes}
    (h : c.Delivers n .linked text) :
    c.thrown = none ∧ ∃ temp, .link temp c.call.output .linked ∈ c.trace := by
  obtain ⟨b, hp, hgives⟩ := h.prepared
  obtain ⟨prim, ha⟩ := h.available
  have hpath : PathGives c.call c.ssl c.kernel c.lib noFiles (.ok text) :=
    (h.regular.faultless hp).pathGives ha hgives
  have hthrown := (hpath.returns text rfl).1
  exact ⟨hthrown, exists_linked_of_returns hthrown⟩

/-- **Two callers with the same output** come to their ends, the first one while the second one has
found that the output does not exist and has not created its file. -/
theorem exists_conflict {ι : Type} [DecidableEq ι] {callers : ι → Caller} {i j : ι} {n m : ℕ}
    {text text' : Bytes} {fs₀ : FileSystem} (hij : i ≠ j) (hnm : n ≠ m)
    (houtput : (callers j).call.output = (callers i).call.output)
    (hi : (callers i).Delivers n .linked text) (hj : (callers j).Delivers m .already_exists text')
    (hunused : Unused (callers i).call.output fs₀) (hn : fs₀.Fresh n) (hm : fs₀.Fresh m) :
    ∃ fs done temp, Execution Dependable (fun i => (callers i).trace) fs₀ fs done ∧
      done i = (callers i).trace ∧ done j = (callers j).trace ∧
      .link temp (callers j).call.output .already_exists ∈ done j := by
  obtain ⟨b, hp, hgives⟩ := hj.prepared
  obtain ⟨prim, ha⟩ := hj.available
  obtain ⟨rest, temp, htrace, hlink, hrefused⟩ := hj.regular.exists_refused hp ha hgives
  have htrace' : (callers j).trace = .status (callers j).call.output (some false) :: rest := htrace
  have hpossible : fs₀.Possible (.status (callers j).call.output (some false)) := by
    rw [houtput]
    simp [FileSystem.Possible, hunused.entry]
  have hdependable : Dependable fs₀ (.status (callers j).call.output (some false)) := by
    constructor
    · intro hcall
      cases hcall
    · simp
  have hstart : Execution Dependable (fun i => (callers i).trace) fs₀ fs₀ fun _ => [] := .start
  have hchecked := hstart.call j _ (by simp [htrace']) hpossible hdependable
  obtain ⟨fs₁, hrun, hcomplete, hbeside⟩ := hi.exists_complete hn hunused
    fun _ _ _ _ hdependable => hdependable
  have hfirst := hchecked.unhindered (i := i) hrun (by simp [Function.update_of_ne hij])
  have hexists : fs₁.entry (callers j).call.output ≠ none := by
    rw [houtput, hcomplete.entry]
    exact Option.some_ne_none n
  obtain ⟨fs₂, hrun', -⟩ := hrefused fs₁ (hbeside.fresh m hnm.symm hm) hexists (houtput ▸ hcomplete.names)
  have hsecond := hfirst.unhindered (i := j) hrun'
    (by simp [Function.update_of_ne hij.symm, htrace'])
  refine ⟨fs₂, _, temp, hsecond, ?_, ?_, ?_⟩
  · simp [Function.update_of_ne hij]
  · simp [Function.update_of_ne hij.symm, htrace']
  · simp [Function.update_of_ne hij.symm, hlink]

/-- Any number of calls that seal the file `i` into `o`; the first one is to win. -/
def rival (i : ℕ) : Caller where
  call := sealSample
  ssl := standardLibrary
  kernel := delivering (i + 1) (if i = 0 then .linked else .already_exists) [0x61]
  lib := {}

lemma exists_rival_delivers : ∃ text, ∀ i,
    (rival i).Delivers (i + 1) (if i = 0 then .linked else .already_exists) text := by
  obtain ⟨text, hgives, -⟩ := exists_payloadGives_sample [] (by decide)
  refine ⟨text, fun i => ⟨regular_delivering _ _ _ _, ⟨[0x61], ?_, hgives⟩, standard, ?_⟩⟩
  · exact preparing_delivering _ _ _ _ _
  · exact standardLibrary_available _

/-- One of two calls wins, the other one is refused, and the output holds the result of the first. -/
theorem paths_noOverwrite_sample : ∃ fs done file input bytes,
    Execution Dependable (fun i => (rival i).trace) noFiles fs done ∧
      done 0 = (rival 0).trace ∧ done 1 = (rival 1).trace ∧
      fs.entry [0x6f] = some file ∧ fs.contents file = some bytes ∧
      sealSample.Yields standard input bytes ∧
      (rival 1).thrown = some ⟨.invalid_input, "Output file already exists"⟩ := by
  obtain ⟨text, hdelivers⟩ := exists_rival_delivers
  have hconflict := exists_conflict (i := 0) (j := 1) zero_ne_one (by decide) rfl (hdelivers 0)
    (hdelivers 1) (unused_noFiles _) (noFiles_fresh 1) (noFiles_fresh 2)
  obtain ⟨fs, done, temp, hrun, hfirst, hsecond, hrefused⟩ := hconflict
  obtain ⟨temp', hlinked⟩ := (hdelivers 0).exists_linked.2
  have hsafe := paths_noOverwrite rival [0x6f] (fun _ => rfl) (fun _ => standardLibrary_sound)
    standard_lengths noFiles
  obtain ⟨file, input, bytes, hentry, hcontents, -, hyields⟩ :=
    hsafe.complete hrun (hfirst ▸ hlinked)
  exact ⟨fs, done, file, input, bytes, hrun, hfirst, hsecond, hentry, hcontents, hyields,
    hsafe.refused hrun hrefused (by decide)⟩

end SecureKit.File
