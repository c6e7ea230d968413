import SecureKit.File.Progress

/-!
# The output path is all or nothing

One call of a path overload, beside processes that create files (`Running`).  Its output path is
either left as it is or gets the complete result, whatever fails on the way
(`path_allOrNothing`).

`AllOrNothing` has a clause for each way in which a call can end.  An output that exists at the
start makes it throw, and so does one that exists when it comes to its link (`start`, `commit`).  A
call that throws leaves the output as it was, unless it was a call on the directory behind the link
that failed (`aborted`); that one, and a call that returns, has linked a file with the complete
result (`complete`).

The result is complete in the sense of `PathCall.Yields`: the file that sealing makes of the bytes
of the input, or the plaintext that these bytes open to.  `Openssl.Sound` is needed for that, which
says that an answer of the library is what the primitives compute, and the sizes of ciphertexts and
tags (`Lengths`).  Nothing is asked of the kernel, so any call of the system may fail at any time.

The argument is that of a phase.  `PathCall.exists_endsIn` follows the call through its trace to a
final phase, and this phase is committed exactly if a link has succeeded; `Running` gives what the
file system then holds.

The three runs of `path_allOrNothing_sample` are one that returns, one that meets an existing
output, and one whose input cannot be opened.
-/

namespace SecureKit.File

open ByteString Iostream Evp Posix

/-- What a call does to its output path, in every run beside processes that create files. -/
structure AllOrNothing (call : PathCall) (prim : Primitives) (trace : List Event)
    (thrown : Option Error) (fs₀ : FileSystem) : Prop where
  /-- The output exists at the start. -/
  start : fs₀.entry call.output ≠ none → (∃ fs, Running (fun _ _ => True) trace fs₀ fs trace) →
    thrown ≠ none ∧ LeavesOutput call trace fs₀
  /-- The output exists at the commit. -/
  commit : ∀ fs done temp answer,
    Takes (fun _ _ => True) trace fs₀ fs done (.link temp call.output answer) →
    fs.entry call.output ≠ none → thrown ≠ none ∧ LeavesOutput call trace fs₀
  /-- The call throws, but not because a call on the directory failed behind the link. -/
  aborted : thrown ≠ none → ¬ DirectoryFailed call trace → LeavesOutput call trace fs₀
  /-- The call returns, or throws because a call on the directory failed behind the link. -/
  complete : thrown = none ∨ DirectoryFailed call trace →
    ∀ fs, Running (fun _ _ => True) trace fs₀ fs trace → ∃ file source bytes,
      fs.entry call.output = some file ∧ fs.contents file = some bytes ∧
      .openInput call.input (some source) ∈ trace ∧ call.Yields prim source bytes

/-- **The output path is all or nothing**, for each of the four path overloads, whatever the input
and whatever fails. -/
theorem path_allOrNothing {ssl : Openssl} {prim : Primitives} (hs : ssl.Sound prim)
    (hl : prim.gcm.Lengths) (call : PathCall) (kernel : Kernel) (lib : Lib) (fs₀ : FileSystem) :
    AllOrNothing call prim (call.trace ssl kernel lib) (call.thrown ssl kernel lib) fs₀ := by
  obtain ⟨ψ, haccepts, hend⟩ := call.exists_endsIn ssl kernel lib (bodyFills_yields hs hl)
  have hnothing : ¬ ψ.Committed → call.thrown ssl kernel lib ≠ none ∧
      LeavesOutput call (call.trace ssl kernel lib) fs₀ := by
    intro hnot
    exact ⟨hend.thrown_ne_none hnot, leavesOutput_of_not_committed haccepts hnot⟩
  constructor
  · -- An output that exists at the start stays there, so no link of the call succeeds.
    intro hexists hrun
    obtain ⟨fs, hrun⟩ := hrun
    exact hnothing (not_committed_of_existing haccepts hexists hrun)
  · -- An output that exists at the link makes it fail with `EEXIST`.
    intro fs done temp answer htakes hexists
    apply hnothing
    have hanswer : answer ≠ .linked := by
      rintro rfl
      exact hexists htakes.possible.2
    have hmem : .link temp call.output answer ∈ call.trace ssl kernel lib :=
      htakes.next.subset (by simp)
    obtain ⟨file, name, rfl⟩ := exists_discarded_of_link haccepts hmem hanswer
    exact id
  · -- A call that throws behind its link has failed on the directory.
    intro hthrown hdirectory
    apply leavesOutput_of_not_committed haccepts
    intro hcommitted
    exact hdirectory ((hend.undurable hthrown hcommitted).directoryFailed haccepts)
  · -- A call that returns, or fails on the directory only, has linked its complete file.
    intro hdone fs hrun
    have hcommitted : ψ.Committed := by
      by_contra hnot
      rcases hdone with hreturns | hdirectory
      · exact hend.thrown_ne_none hnot hreturns
      · exact hnot (hdirectory.committed haccepts)
    obtain ⟨φ, hφ, hholds⟩ := exists_holds haccepts hrun
    obtain rfl : φ = ψ := Option.some.inj (hφ.symm.trans haccepts)
    exact committed_complete haccepts hend List.prefix_rfl hφ hcommitted hholds

/-- A file system in which `o` exists. -/
def taken : FileSystem := noFiles.create [0x6f] 5 [1]

/-- A system that says so. -/
def occupied : Kernel := { delivering 0 .linked [0x61] with status := fun _ _ => some true }

/-- A call that returns, one that finds its output, and one that cannot open its input. -/
theorem path_allOrNothing_sample :
    (∃ fs file source bytes,
      Running (fun _ _ => True) (sealSample.trace standardLibrary (delivering 0 .linked [0x61]) {})
        noFiles fs (sealSample.trace standardLibrary (delivering 0 .linked [0x61]) {}) ∧
      fs.entry [0x6f] = some file ∧ fs.contents file = some bytes ∧
      sealSample.Yields standard source bytes) ∧
    (∃ fs, Running (fun _ _ => True) (sealSample.trace standardLibrary occupied {}) taken fs
      (sealSample.trace standardLibrary occupied {})) ∧
    sealSample.thrown standardLibrary occupied {} ≠ none ∧
    LeavesOutput sealSample (sealSample.trace standardLibrary occupied {}) taken ∧
    AllOrNothing openSample standard (openSample.trace standardLibrary (withoutInput true) {})
      (openSample.thrown standardLibrary (withoutInput true) {}) noFiles := by
  have hall := path_allOrNothing standardLibrary_sound standard_lengths
  obtain ⟨text, hgives, -⟩ := exists_payloadGives_sample [] (by decide)
  -- The call that returns: a free name, an input and a link.
  have hregular := regular_delivering 0 .linked [0x61] sealSample.output
  have hprepared := preparing_delivering 0 .linked [0x61] sealSample.input sealSample.output
  have hadmits : ∀ fs e, e ∈ sealSample.trace standardLibrary (delivering 0 .linked [0x61]) {} →
      Beside sealSample 0 noFiles fs → Dependable fs e → (fun _ _ => True) fs e := by
    intro _ _ _ _ _
    trivial
  obtain ⟨fs, hrun, -, -⟩ := hregular.exists_complete hprepared (standardLibrary_available _) hgives
    (noFiles_fresh 0) rfl (fun _ _ => rfl) hadmits
  have hreturns : sealSample.thrown standardLibrary (delivering 0 .linked [0x61]) {} = none := by
    have hpath : PathGives sealSample standardLibrary _ {} noFiles (.ok text) :=
      (hregular.faultless hprepared).pathGives (standardLibrary_available _) hgives
    exact (hpath.returns text rfl).1
  obtain ⟨file, source, bytes, hentry, hcontents, -, hyields⟩ :=
    (hall sealSample _ _ noFiles).complete (.inl hreturns) fs hrun.running
  -- The call that meets an existing output stops at its first question.
  have htrace : sealSample.trace standardLibrary occupied {} = [.status [0x6f] (some true)] := rfl
  have hoccupied : ∃ fs, Running (fun _ _ => True) (sealSample.trace standardLibrary occupied {}) taken
      fs (sealSample.trace standardLibrary occupied {}) := by
    have hpossible : taken.Possible (.status [0x6f] (some true)) := by
      simp [FileSystem.Possible, taken, FileSystem.create]
    rw [htrace]
    exact ⟨taken, (Unhindered.cons hpossible trivial (.nil taken)).running⟩
  obtain ⟨hthrown, hleaves⟩ := (hall sealSample occupied {} taken).start
    (by simp [taken, sealSample, FileSystem.create]) hoccupied
  exact ⟨⟨fs, file, source, bytes, hrun.running, hentry, hcontents, hyields⟩, hoccupied, hthrown,
    hleaves, hall openSample _ _ noFiles⟩

end SecureKit.File
