import SecureKit.File.Concurrent

/-!
# Sealing and opening on one file system

One call seals a file into a path, another one opens the file from there, and both run beside any
number of other calls and beside processes that create files.  The two calls do not know of each
other: nothing but the file system tells the second one that the first one is done.

If both commit, the second one has written the plaintext that the first one has read
(`pipeline_delivers`).  What a stream on the shared path delivers is taken from the file system
(`ReadsFile`); the rest is that the first result is complete from the link on, that nobody changes
it, and that what was there before the link cannot have been opened (`Served`).

## What the calls share

`OpensFor` relates the two calls: the same secret and the same additional data, and an operation
that opens the format of the other one.  Salt and nonce prefix are drawn by the sealing call and
read from the file by the opening call (`Envelopes.Told`).

`Shares` are the steps that are admitted: the calls on directories succeed, links fail only where
the target exists (`Dependable`), and a stream on the path delivers what the file has when it is
opened, or a part of it and then fails (`StreamOf`).  A stream that fails midway is admitted, since
a call that opens such a file throws.

The path must be no temporary name of another call; otherwise what is read could be a file that is
still being written.

In `pipeline_delivers_sample` the byte `a` is sealed by one call and opened by another one, each with
a file of its own, and both link their result.
-/

namespace SecureKit.File

open ByteString Iostream Evp Posix Chunks

/-! ## Opening what was sealed -/

/-- The headers of a format tell its envelopes apart. -/
structure Envelopes.Told (envelope : Envelopes) : Prop where
  length : ∀ salt noncePrefix salt' noncePrefix',
    (envelope salt noncePrefix).serialized.length = (envelope salt' noncePrefix').serialized.length
  injective : ∀ {salt noncePrefix salt' noncePrefix'},
    (envelope salt noncePrefix).serialized = (envelope salt' noncePrefix').serialized →
    salt = salt' ∧ noncePrefix = noncePrefix'

section Opening

variable {gcm : AesGcm} {e : Envelope} {plaintext b : Bytes}

lemma FileFormat.Lawful.told {ssl : Openssl} {prim : Primitives} {cap : ℕ} {format : FileFormat}
    (law : format.Lawful ssl prim cap) (aad : Bytes) :
    Envelopes.Told fun salt noncePrefix => law.envelope salt noncePrefix aad := by
  constructor
  · intro salt noncePrefix salt' noncePrefix'
    simp [FileFormat.Lawful.envelope]
  · intro salt noncePrefix salt' noncePrefix' h
    exact law.serialized_injective (ByteArr.ext h)

lemma told_keyEnvelope (prim : Primitives) (key : key256) (aad : Bytes) :
    Envelopes.Told fun salt noncePrefix => keyEnvelope prim key salt noncePrefix aad := by
  have htold := (keyFormatLawful standardLibrary_sound 0 key).told aad
  exact ⟨htold.length, htold.injective⟩

/-- The header does not depend on the password. -/
lemma told_passwordEnvelope (prim : Primitives) (password aad : Bytes) :
    Envelopes.Told fun salt noncePrefix => passwordEnvelope prim password salt noncePrefix aad := by
  have htold := (passwordFormatLawful standardLibrary_sound 0 (List.cons_ne_nil 0 [])).told aad
  exact ⟨htold.length, htold.injective⟩

/-- The layout of a plaintext reads as the plaintext. -/
lemma reads_of_isLayout (hl : gcm.Lengths) (hc : gcm.Correct) (h : IsLayout gcm e plaintext b) :
    ∃ body, b = e.serialized ++ body ∧ e.Reads gcm 0 (.finite body .eof) plaintext .accepted := by
  obtain ⟨parts, last, hcut, hcanonical, -⟩ :=
    IsCut.exists_canonical (show 0 < 2 ^ 20 by decide) plaintext
  have hcount : recordCount plaintext = parts.length + 1 := hcut.count hcanonical (by decide)
  have hindex : parts.length < 2 ^ 32 := by
    have hle := h.count_le
    omega
  have hreads := Envelope.reads_sealed (e := e) hl hcut.full hcut.last_le hindex
    (Envelope.recoversAll_of_correct hl hc 0 parts last)
  rw [← hcut.eq_flatten] at hreads
  refine ⟨_, ?_, hreads⟩
  rw [Envelope.sealedBody_eq_layout hl hcut hcanonical]
  exact h.bytes

/-- **A sealed file opens to its plaintext**, and to nothing else. -/
theorem text_of_isLayout {envelope : Envelopes} {salt salt' : ByteArr kSaltSize}
    {noncePrefix noncePrefix' : ByteArr kNoncePrefixSize} {full : List EncryptedChunk}
    {last : EncryptedChunk} (hl : gcm.Lengths) (hc : gcm.Correct) (htold : envelope.Told)
    (hlayout : IsLayout gcm (envelope salt noncePrefix) plaintext b)
    (hfile : (envelope salt' noncePrefix').IsFile gcm b full last) :
    (envelope salt' noncePrefix').text gcm full last = plaintext := by
  obtain ⟨body, hbody, hreads⟩ := reads_of_isLayout hl hc hlayout
  obtain ⟨body', hbody', hreads'⟩ := hfile.reads
  obtain ⟨hheader, rfl⟩ := List.append_inj (hbody.symm.trans hbody') (htold.length _ _ _ _)
  obtain ⟨rfl, rfl⟩ := htold.injective hheader
  exact (hreads'.deterministic hreads (by simp) (by simp)).1

end Opening

/-! ## Calls that belong together -/

/-- The second call opens what the first one seals: with the same secret and the same additional
data. -/
def PathCall.OpensFor (opening sealing : PathCall) : Prop :=
  opening.aad = sealing.aad ∧
    match sealing.operation, opening.operation with
    | .seal_file key, .open_file key' => key = key'
    | .seal_file_with_password password, .open_file_with_password password' => password = password'
    | _, _ => False

/-- The result of the second call is the input of the first one. -/
lemma PathCall.OpensFor.eq_plaintext {opening sealing : PathCall} (h : opening.OpensFor sealing)
    {prim : Primitives} (hl : prim.gcm.Lengths) (hc : prim.gcm.Correct) {source : Source}
    {b text : Bytes} (hsealed : sealing.Yields prim source b)
    (hopened : opening.Yields prim (.finite b .eof) text) : source = .finite text .eof := by
  obtain ⟨operation, input, output, aad⟩ := sealing
  obtain ⟨operation', input', output', aad'⟩ := opening
  obtain ⟨rfl, hoperation⟩ := h
  have hdone : ∀ {envelope : Envelopes}, envelope.Told → SealsInput prim.gcm envelope source b →
      OpensInput prim.gcm envelope (.finite b .eof) text → source = .finite text .eof := by
    intro envelope htold hsealed hopened
    obtain ⟨plaintext, salt, noncePrefix, rfl, hlayout⟩ := hsealed
    obtain ⟨content, salt', noncePrefix', full, last, hsource, hfile, rfl⟩ := hopened
    obtain ⟨rfl, -⟩ := Source.finite.inj hsource
    rw [text_of_isLayout hl hc htold hlayout hfile]
  cases operation with
  | seal_file key =>
    cases operation' with
    | open_file key' =>
      obtain rfl : key = key' := hoperation
      exact hdone (told_keyEnvelope prim key aad') hsealed hopened
    | seal_file | seal_file_with_password | open_file_with_password => exact hoperation.elim
  | seal_file_with_password password =>
    cases operation' with
    | open_file_with_password password' =>
      obtain rfl : password = password' := hoperation
      exact hdone (told_passwordEnvelope prim password aad') hsealed hopened
    | seal_file | open_file | seal_file_with_password => exact hoperation.elim
  | open_file | open_file_with_password => exact hoperation.elim

/-- A stream that fails yields no result. -/
lemma PathCall.Yields.exists_eof {call : PathCall} {prim : Primitives} {source : Source} {b : Bytes}
    (h : call.Yields prim source b) : ∃ content, source = .finite content .eof := by
  obtain ⟨operation, input, output, aad⟩ := call
  cases operation with
  | seal_file | seal_file_with_password =>
    obtain ⟨plaintext, -, -, hsource, -⟩ := h
    exact ⟨plaintext, hsource⟩
  | open_file | open_file_with_password =>
    obtain ⟨content, -, -, -, -, hsource, -⟩ := h
    exact ⟨content, hsource⟩

/-! ## What is read from the shared path -/

/-- What a stream on a file with the given contents delivers: all of it, or the front of it before
the stream fails. -/
def StreamOf (source : Source) (bytes : Bytes) : Prop :=
  source = .finite bytes .eof ∨ ∃ n, source = .finite (bytes.take n) .fault

/-- A stream on the path is opened on the file the path refers to. -/
def ReadsFile (path : Path) (fs : FileSystem) (e : Event) : Prop :=
  ∀ source, e = .openInput path (some source) →
    ∃ n bytes, fs.entry path = some n ∧ fs.contents n = some bytes ∧ StreamOf source bytes

/-- The steps of a pipeline over the path. -/
def Shares (path : Path) (fs : FileSystem) (e : Event) : Prop := Dependable fs e ∧ ReadsFile path fs e

/-- Who has read from the path has found a file there.  If the result of a caller is linked to the
path, it is that file. -/
structure Served {ι : Type} (callers : ι → Caller) (path : Path) (fs : FileSystem) (s : ι → Phase) :
    Prop where
  together : Together callers fs s
  exists_entry : ∀ j source, (callers j).call.input = path → (s j).source = some source →
    fs.entry path ≠ none
  delivers : ∀ i j source, (callers i).call.output = path → (callers j).call.input = path →
    (s j).source = some source → (s i).Committed →
    ∃ n bytes, (s i).Owning n ∧ fs.contents n = some bytes ∧ StreamOf source bytes

lemma Served.creates {ι : Type} {callers : ι → Caller} {path : Path} {fs fs' : FileSystem}
    {s : ι → Phase} (h : Served callers path fs s) (hcreates : fs.Creates fs') :
    Served callers path fs' s := by
  refine ⟨⟨fun i => (h.together.holds i).of_creates hcreates, h.together.durable, h.together.distinct⟩,
    fun j source hinput hj => ?_, fun i j source houtput hinput hj hcommitted => ?_⟩
  · have hentry := h.exists_entry j source hinput hj
    rwa [hcreates.entry_eq hentry]
  · obtain ⟨n, bytes, howning, hcontents, hdelivers⟩ := h.delivers i j source houtput hinput hj hcommitted
    refine ⟨n, bytes, howning, ?_, hdelivers⟩
    rw [(hcreates.same ((h.together.holds i).contents_ne_none howning)).contents, hcontents]

section Steps

variable {ι : Type} [DecidableEq ι] {callers : ι → Caller} {path : Path} {fs : FileSystem}
  {s : ι → Phase} {i : ι} {e : Event} {ψ : Phase} {n : ℕ}

/-- A call removes no name but its temporary ones. -/
lemma entry_after_of_step {call : PathCall} {done : List Event} {φ : Phase}
    (hφ : phaseAfter call done = some φ) (hholds : φ.Holds call fs) (hpossible : fs.Possible e)
    (hstep : Phase.Step call φ e ψ) (hpath : ¬ IsTempPath call.output path)
    (hentry : fs.entry path = some n) : (fs.after e).entry path = some n := by
  -- A call unlinks its temporary name only.
  have hremoved : ∀ {temp file stage ok}, φ = .owning temp file stage →
      (fs.after (.unlink temp ok)).entry path = some n := by
    intro temp file stage ok hstage
    have htemp := isTempPath_of_created hφ ((created_mem_iff hφ temp file).mpr ⟨stage, hstage⟩)
    have hne : path ≠ temp := by
      rintro rfl
      exact hpath htemp
    cases ok with
    | false => exact hentry
    | true => exact (Function.update_of_ne hne _ _).trans hentry
  cases hstep with
  | checked | unchecked | taken | failed => exact hentry
  -- New names are temporary ones or the output, which did not exist.
  | created temp file htemp =>
    have hne : path ≠ temp := by
      rintro rfl
      exact hpath htemp
    exact (Function.update_of_ne hne _ _).trans hentry
  | owning temp file hstage =>
    cases hstage with
    | opened | orphaned | closeDescriptor | openInput | synced | unsynced | refused | unlinkable =>
      exact hentry
    | written | unwritten | flushed | unflushed | closed | unclosed | abandon | giveUp =>
      exact (congrFun (fs.entry_transfer _ _ _) path).trans hentry
    | linked draft =>
      have hne : path ≠ call.output := by
        rintro rfl
        exact absurd hpossible.2 (by simp [hentry])
      exact (Function.update_of_ne hne _ _).trans hentry
    | drop refused ok => exact hremoved rfl
    | remove draft name durable ok hname => exact hremoved rfl
    | directory draft name durable ok e hcall => cases hcall <;> exact hentry

lemma Phase.Owning.step {call : PathCall} {φ : Phase} (h : φ.Owning n)
    (hstep : Phase.Step call φ e ψ) : ψ.Owning n := by
  cases hstep with
  | checked | unchecked | created | taken | failed => exact h.elim
  | owning => exact h

/-- A committed file keeps its contents, whoever takes a step. -/
lemma Together.contents_of_committed (h : Together callers fs s) {j : ι}
    (hpossible : fs.Possible e) (hstep : Phase.Step (callers i).call (s i) e ψ)
    (howning : (s j).Owning n) (hcommitted : (s j).Committed) :
    (fs.after e).contents n = fs.contents n := by
  by_cases hj : j = i
  · subst hj
    have hentry := ((h.holds j).committed_iff howning).mpr hcommitted
    rcases (h.holds j).unchanged hpossible hstep with hsame | ⟨hnot, -, -⟩
    · exact hsame.contents n hentry
    · exact absurd hcommitted hnot
  · have huntouched : ¬ fs.Touches e n := by
      intro htouches
      exact hj (h.distinct j i n howning ((h.holds i).touches hstep (h.durable i) htouches))
    exact (FileSystem.frame hpossible huntouched ((h.holds j).contents_ne_none howning)).contents

/-- **The steps of a caller** keep what the readers of the path have read. -/
theorem Served.step {done : List Event} (h : Served callers path fs s)
    (hφ : phaseAfter (callers i).call done = some (s i)) (hpossible : fs.Possible e)
    (hshares : Shares path fs e) (hstep : Phase.Step (callers i).call (s i) e ψ)
    (hpath : ¬ IsTempPath (callers i).call.output path) :
    Served callers path (fs.after e) (Function.update s i ψ) := by
  have htogether := h.together.step hpossible hshares.1 hstep
  have hkept : fs.entry path ≠ none → (fs.after e).entry path ≠ none := by
    intro hentry
    obtain ⟨n, hn⟩ := Option.ne_none_iff_exists'.mp hentry
    rw [entry_after_of_step hφ (h.together.holds i) hpossible hstep hpath hn]
    exact Option.some_ne_none n
  -- Who has a source now had it before, or opens the path in this step.
  have hsource : ∀ j source, (callers j).call.input = path →
      (Function.update s i ψ j).source = some source →
      (s j).source = some source ∨ e = .openInput path (some source) := by
    intro j source hinput hj
    by_cases hji : j = i
    · subst hji
      rw [Function.update_self] at hj
      rw [← hinput]
      exact Phase.source_of_step hj hstep
    · rw [Function.update_of_ne hji] at hj
      exact .inl hj
  refine ⟨htogether, fun j source hinput hj => ?_, fun k j source houtput hinput hj hcommitted => ?_⟩
  · rcases hsource j source hinput hj with hbefore | rfl
    · exact hkept (h.exists_entry j source hinput hbefore)
    · obtain ⟨n, bytes, hentry, -, -⟩ := hshares.2 source rfl
      exact hkept (by simp [hentry])
  · obtain ⟨n, howning, hentry⟩ := (htogether.holds k).exists_output hcommitted
    rw [houtput] at hentry
    rcases hsource j source hinput hj with hbefore | rfl
    · -- The path had an entry before, so it was not linked in this step.
      have hexists := h.exists_entry j source hinput hbefore
      obtain ⟨m, hm⟩ := Option.ne_none_iff_exists'.mp hexists
      have hcommitted' : (s k).Committed := by
        by_cases hk : k = i
        · subst hk
          rw [Function.update_self] at hcommitted
          rcases hcommitted.of_step hstep with hbefore | ⟨temp, rfl⟩
          · exact hbefore
          · rw [houtput] at hpossible
            exact absurd hpossible.2 hexists
        · rwa [Function.update_of_ne hk] at hcommitted
      obtain ⟨n', bytes, howning', hcontents, hdelivers⟩ := h.delivers k j source houtput hinput hbefore
        hcommitted'
      refine ⟨n', bytes, ?_, ?_, hdelivers⟩
      · by_cases hk : k = i
        · subst hk
          rw [Function.update_self]
          exact howning'.step hstep
        · rwa [Function.update_of_ne hk]
      · rw [h.together.contents_of_committed hpossible hstep howning' hcommitted', hcontents]
    · obtain ⟨m, bytes, hentry', hcontents, hdelivers⟩ := hshares.2 source rfl
      obtain rfl : m = n := Option.some.inj (hentry'.symm.trans hentry)
      exact ⟨m, bytes, howning, hcontents, hdelivers⟩

/-- **In every interleaving** the readers of the path have read the result that is linked there. -/
theorem exists_served {fs₀ : FileSystem} {done : ι → List Event}
    (hpath : ∀ i, ¬ IsTempPath (callers i).call.output path)
    (h : Execution (Shares path) (fun i => (callers i).trace) fs₀ fs done) :
    ∃ s, (∀ i, phaseAfter (callers i).call (done i) = some (s i)) ∧ Served callers path fs s := by
  induction h with
  | start =>
    have htogether : Together callers fs₀ fun _ => .checking :=
      ⟨fun _ => trivial, fun _ => id, fun _ _ _ hfalse => hfalse.elim⟩
    refine ⟨fun _ => .checking, fun _ => rfl, htogether, fun j source _ hj => ?_,
      fun i j source _ _ hj => ?_⟩
    · cases hj
    · cases hj
  | @call fs done i e hrun hnext hpossible hshares ih =>
    obtain ⟨s, hs, hserved⟩ := ih
    obtain ⟨final, haccepts, -⟩ := (callers i).call.exists_endsIn (callers i).ssl (callers i).kernel
      (callers i).lib bodyFills_any
    obtain ⟨ψ, hψ, hstep⟩ := exists_next_phase haccepts (hs i) hnext
    refine ⟨Function.update s i ψ, fun j => ?_, hserved.step (hs i) hpossible hshares hstep (hpath i)⟩
    by_cases hj : j = i
    · subst hj
      rw [Function.update_self, Function.update_self]
      exact hψ
    · rw [Function.update_of_ne hj, Function.update_of_ne hj]
      exact hs j
  | other _ hcreates ih =>
    obtain ⟨s, hs, hserved⟩ := ih
    exact ⟨s, hs, hserved.creates hcreates⟩

/-- The result of a call that has committed, and the input it belongs to. -/
lemma exists_result {prim : Primitives} {c : Caller} {front : List Event} {φ : Phase}
    (hs : c.ssl.Sound prim) (hl : prim.gcm.Lengths) (hfront : front <+: c.trace)
    (hφ : phaseAfter c.call front = some φ) (hholds : φ.Holds c.call fs) (hcommitted : φ.Committed) :
    ∃ m source bytes, φ.Owning m ∧ φ.source = some source ∧ fs.entry c.call.output = some m ∧
      fs.contents m = some bytes ∧ c.call.Yields prim source bytes := by
  obtain ⟨final, haccepts, hend⟩ := c.call.exists_endsIn c.ssl c.kernel c.lib (bodyFills_yields hs hl)
  cases φ with
  | checking | searching | ended => exact hcommitted.elim
  | owning temp file stage =>
    cases stage with
    | created | orphaned | writing | broken | flushed | synced | closed | discarded =>
      exact hcommitted.elim
    | linked draft name durable =>
      have htrace : phaseAfter c.call c.trace = some final := haccepts
      obtain ⟨rest, hrest⟩ := hfront
      rw [← hrest] at htrace
      obtain ⟨φ', hφ', hfinal⟩ := foldlM_append_iff.mp htrace
      obtain rfl := Option.some.inj (hφ.symm.trans hφ')
      obtain ⟨name', durable', rfl⟩ := exists_linked_of_foldlM hfinal
      obtain ⟨source, hsource, hyields⟩ := hend.draft_complete
      have howns : Owns c.call temp file (.linked draft name durable) fs := hholds
      exact ⟨file, source, draft.bytes, rfl, hsource, howns.committed.mpr trivial, howns.data.1, hyields⟩

end Steps

/-! ## The pipeline -/

/-- In every execution in which both have committed, the caller `j` has written what the caller `i`
has read. -/
def PassesOn {ι : Type} [DecidableEq ι] (callers : ι → Caller) (i j : ι) (path : Path)
    (fs₀ : FileSystem) : Prop :=
  ∀ fs done temp temp', Execution (Shares path) (fun i => (callers i).trace) fs₀ fs done →
    .link temp path .linked ∈ done i → .link temp' (callers j).call.output .linked ∈ done j →
    ∃ plaintext n, .openInput (callers i).call.input (some (.finite plaintext .eof)) ∈ done i ∧
      fs.entry (callers j).call.output = some n ∧ fs.contents n = some plaintext

/-- **A pipeline delivers** what it was given, whatever runs beside it. -/
theorem pipeline_delivers {ι : Type} [DecidableEq ι] (callers : ι → Caller) (i j : ι) {path : Path}
    {prim : Primitives} (houtput : (callers i).call.output = path)
    (hinput : (callers j).call.input = path)
    (hpath : ∀ k, ¬ IsTempPath (callers k).call.output path)
    (hmatch : (callers j).call.OpensFor (callers i).call) (hi : (callers i).ssl.Sound prim)
    (hj : (callers j).ssl.Sound prim) (hl : prim.gcm.Lengths) (hc : prim.gcm.Correct)
    (fs₀ : FileSystem) : PassesOn callers i j path fs₀ := by
  intro fs done temp temp' hrun hsealed hopened
  obtain ⟨s, hs, hserved⟩ := exists_served hpath hrun
  rw [← houtput] at hsealed
  have hcommitted : (s i).Committed := (committed_iff_link (hs i)).mpr ⟨temp, hsealed⟩
  have hcommitted' : (s j).Committed := (committed_iff_link (hs j)).mpr ⟨temp', hopened⟩
  obtain ⟨n, source, b, howning, hsource, -, hcontents, hyields⟩ := exists_result hi hl
    (hrun.done_prefix i) (hs i) (hserved.together.holds i) hcommitted
  obtain ⟨m, source', text, -, hsource', hentry, htext, hyields'⟩ := exists_result hj hl
    (hrun.done_prefix j) (hs j) (hserved.together.holds j) hcommitted'
  obtain ⟨n', bytes, howning', hbytes, hdelivers⟩ := hserved.delivers i j source' houtput hinput
    hsource' hcommitted
  -- The file that was read is the one the sealing call has linked.
  obtain rfl : n = n' := by
    have hn := ((hserved.together.holds i).committed_iff howning).mpr hcommitted
    have hn' := ((hserved.together.holds i).committed_iff howning').mpr hcommitted
    exact Option.some.inj (hn.symm.trans hn')
  obtain rfl : b = bytes := Option.some.inj (hcontents.symm.trans hbytes)
  -- A stream that fails midway would not have given a result.
  have heof : source' = .finite b .eof := by
    obtain ⟨content, hcontent⟩ := hyields'.exists_eof
    rcases hdelivers with heq | ⟨k, heq⟩
    · exact heq
    · rw [heq] at hcontent
      cases hcontent
  rw [heof] at hyields'
  have hplain := hmatch.eq_plaintext hl hc hyields hyields'
  refine ⟨text, m, ?_, hentry, htext⟩
  rw [← hplain]
  exact Phase.openInput_mem hsource (hs i)

/-- A call that seals the file `i` into `m`, and any number of calls that open `m` into `o`. -/
def pipeCall (i : ℕ) : PathCall :=
  if i = 0 then ⟨.seal_file (ByteArr.zeros 32), [0x69], [0x6d], []⟩
  else ⟨.open_file (ByteArr.zeros 32), [0x6d], [0x6f], []⟩

/-- The first call reads the byte `a`, the others read `file`. -/
def pipeSample (file : Bytes) (i : ℕ) : Caller where
  call := pipeCall i
  ssl := standardLibrary
  kernel := delivering i .linked (if i = 0 then [0x61] else file)
  lib := {}

lemma pipeSample_hpath (file : Bytes) (k : ℕ) :
    ¬ IsTempPath (pipeSample file k).call.output [0x6d] := by
  show ¬ IsTempPath (pipeCall k).output [0x6d]
  by_cases hk : k = 0
  · rw [pipeCall, if_pos hk]
    decide
  · rw [pipeCall, if_neg hk]
    decide

/-- The file that is passed on: the byte `a`, sealed. -/
lemma exists_pipeSample : ∃ file,
    (pipeSample file 0).Delivers 0 .linked file ∧ (pipeSample file 1).Delivers 1 .linked [0x61] := by
  obtain ⟨file, hsealing, hopening⟩ := exists_payloadGives_sample [] (by decide)
  refine ⟨file, ⟨regular_delivering _ _ _ _, ⟨[0x61], ?_, hsealing⟩, standard, ?_⟩,
    ⟨regular_delivering _ _ _ _, ⟨file, ?_, hopening⟩, standard, ?_⟩⟩
  · exact preparing_delivering _ _ _ _ _
  · exact standardLibrary_available _
  · exact preparing_delivering _ _ _ _ _
  · exact standardLibrary_available _

/-- What the first call leaves does not concern the output of the second one. -/
lemma unused_pipe {fs : FileSystem} (h : Beside (pipeCall 0) 0 noFiles fs) : Unused [0x6f] fs := by
  refine ⟨h.entry _ (by decide) (by decide), fun path htemp => h.entry path ?_ fun hother => ?_⟩
  · rintro rfl
    exact absurd htemp (by decide)
  · have hfirst := congrArg List.head? (htemp.1.symm.trans hother.1)
    simp [pipeCall] at hfirst

/-- The second call runs when the first one has come to its end. -/
lemma exists_pipe_execution {file : Bytes} (h : (pipeSample file 0).Delivers 0 .linked file)
    (h' : (pipeSample file 1).Delivers 1 .linked [0x61]) : ∃ fs done,
    Execution (Shares [0x6d]) (fun i => (pipeSample file i).trace) noFiles fs done ∧
      done 0 = (pipeSample file 0).trace ∧ done 1 = (pipeSample file 1).trace := by
  have hinput : ∀ i path answer, .openInput path answer ∈ (pipeSample file i).trace →
      path = (pipeCall i).input := by
    intro i path answer hmem
    obtain ⟨ψ, haccepts, -⟩ := (pipeSample file i).call.exists_endsIn (pipeSample file i).ssl
      (pipeSample file i).kernel (pipeSample file i).lib bodyFills_any
    exact openInput_path haccepts hmem
  have hfree : ∀ fs e, e ∈ (pipeSample file 0).trace → Beside (pipeCall 0) 0 noFiles fs →
      Dependable fs e → Shares [0x6d] fs e := by
    intro fs e hmem _ hdependable
    refine ⟨hdependable, ?_⟩
    rintro source rfl
    exact absurd (hinput 0 _ _ hmem) (by decide)
  obtain ⟨fs₁, hrun, hcomplete, hbeside⟩ := h.exists_complete (noFiles_fresh 0) (unused_noFiles _) hfree
  have hreads : ∀ fs e, e ∈ (pipeSample file 1).trace → Beside (pipeCall 1) 1 fs₁ fs →
      Dependable fs e → Shares [0x6d] fs e := by
    intro fs e hmem hlater hdependable
    refine ⟨hdependable, ?_⟩
    rintro source rfl
    have hsame := hlater.same 0 (by decide) (by simp [hcomplete.contents])
    obtain ⟨t, hsource⟩ := AnsweredBy.openInput_eq (PathCall.answered _ _ _ _ _ hmem)
    obtain rfl : source = .finite file .eof := Option.some.inj hsource
    exact ⟨0, file, (hsame.entry_iff _).mpr hcomplete.entry, hsame.contents.trans hcomplete.contents,
      .inl rfl⟩
  obtain ⟨fs₂, hrun', -, -⟩ := h'.exists_complete (hbeside.fresh 1 (by decide) (noFiles_fresh 1))
    (unused_pipe hbeside) hreads
  have hfirst : Execution (Shares [0x6d]) (fun i => (pipeSample file i).trace) noFiles fs₁ _ :=
    Execution.unhindered (i := 0) .start hrun (by simp)
  refine ⟨fs₂, _, hfirst.unhindered (i := 1) hrun' (by simp), ?_, ?_⟩
  · simp
  · simp

/-- The byte `a` is sealed, and opened again by another call. -/
theorem pipeline_delivers_sample : ∃ file fs done n,
    Execution (Shares [0x6d]) (fun i => (pipeSample file i).trace) noFiles fs done ∧
      done 0 = (pipeSample file 0).trace ∧ done 1 = (pipeSample file 1).trace ∧
      fs.entry [0x6f] = some n ∧ fs.contents n = some [0x61] := by
  obtain ⟨file, hsealing, hopening⟩ := exists_pipeSample
  obtain ⟨fs, done, hrun, hfirst, hsecond⟩ := exists_pipe_execution hsealing hopening
  obtain ⟨temp, hsealed⟩ := hsealing.exists_linked.2
  obtain ⟨temp', hopened⟩ := hopening.exists_linked.2
  obtain ⟨plaintext, n, hinput, hentry, hcontents⟩ :=
    pipeline_delivers (pipeSample file) 0 1 rfl rfl (pipeSample_hpath file) ⟨rfl, rfl⟩
      standardLibrary_sound standardLibrary_sound standard_lengths standard_exact.correct noFiles fs done
      temp temp' hrun (hfirst ▸ hsealed) (hsecond ▸ hopened)
  rw [hfirst] at hinput
  obtain ⟨t, hsource⟩ := AnsweredBy.openInput_eq (PathCall.answered _ _ _ _ _ hinput)
  obtain ⟨rfl, -⟩ := Source.finite.inj (Option.some.inj hsource)
  exact ⟨file, fs, done, n, hrun, hfirst, hsecond, hentry, hcontents⟩

end SecureKit.File
