import SoftwareHub.Lifecycle.UploadCompensation

/-! The copy of an upload, write by write: `_copy_stream` with its short reads, its
short writes and its accumulators. -/
namespace SoftwareHub.Lifecycle

open SoftwareHub.Python SoftwareHub.Semantics Program
open SoftwareHub.Backup (Directory)
open SoftwareHub.Storage (TreeProgram fileValidationError)
open UploadService (copyChunks createFile finishCopy payloadTooLarge storeError)

/-- The file at the destination, and how often it was written to. -/
structure Destination where
  file : Option Bytes
  writes : Nat

abbrev DestinationProgram (α : Type) := Program Destination PyException α

/-- What the calls of one copy meet. -/
structure CopyIo where
  openFault : Option OSError
  /-- The answer of the n-th `os.write` to the bytes it is given. -/
  osWrite : Nat → Bytes → Except OSError Nat
  syncFault : Option OSError
  chmodFault : Option OSError
  closeFault : Option OSError

/-- The hash object is what it has been given. -/
structure StreamingSha256 where
  hashed : Bytes
  bytesProcessed : Nat

namespace StreamingSha256

/-- `hashlib.sha256()`. -/
def empty : StreamingSha256 := ⟨[], 0⟩

/-- `digest.update(chunk)`. -/
def update (digest : StreamingSha256) (chunk : Bytes) : StreamingSha256 :=
  if chunk = [] then digest else ⟨digest.hashed ++ chunk, digest.bytesProcessed + chunk.length⟩

/-- `digest.hexdigest()`. -/
def hexdigest (digest : StreamingSha256) : PyStr := Sha256.hexdigest digest.hashed

end StreamingSha256

/-- What the loop carries along: the size, the digest and the sample. -/
structure Accumulators where
  digest : StreamingSha256
  sample : Bytes

/-- What the copy returns. -/
structure CopyResult where
  sizeBytes : Nat
  sha256 : PyStr
  signatureSample : Bytes

/-- An empty source is refused after the loop. -/
def emptyUpload : PyException := fileValidationError "Empty files cannot be uploaded."

namespace Streaming

variable (io : CopyIo)

/-- `os.open` with `O_CREAT | O_EXCL`. -/
def osOpen : DestinationProgram Unit := fun destination =>
  match io.openFault, destination.file with
  | some e, _ => (.error (.os e), destination)
  | none, some _ => (.error (.os .fileExistsError), destination)
  | none, none => (.ok (), { destination with file := some [] })

/-- `os.write(descriptor, view)`. -/
def osWrite (view : Bytes) : DestinationProgram Nat := fun destination =>
  match io.osWrite destination.writes view with
  | .error e => (.error (.os e), { destination with writes := destination.writes + 1 })
  | .ok written => (.ok written, ⟨destination.file.map (· ++ view.take written), destination.writes + 1⟩)

/-- The inner loop: what a short write has left is written again. -/
def writeAll (view : Bytes) : DestinationProgram Unit :=
  if _hView : view = [] then pure ()
  else do
    let written ← osWrite io view
    if _hWritten : written = 0 then raise (.os .other) else writeAll (view.drop written)
termination_by view.length
decreasing_by
  have hLength : 0 < view.length := List.length_pos_iff.mpr _hView
  rw [List.length_drop]
  omega

/-- The sample takes of a chunk what is missing. -/
def extendSample (sampleSize : Nat) (sample chunk : Bytes) : Bytes :=
  if sample.length < sampleSize then sample ++ chunk.take (sampleSize - sample.length) else sample

/-- The loop over the chunks. A chunk that would pass the limit is not written. -/
def copyLoop (maxSize sampleSize : Nat) : List (Except PyException Bytes) → Accumulators → DestinationProgram Accumulators
  | [], state => pure state
  | .error e :: _, _ => raise e
  | .ok chunk :: reads, state =>
      if chunk = [] then pure state
      else if maxSize < state.digest.bytesProcessed + chunk.length then raise payloadTooLarge
      else do
        writeAll io chunk
        copyLoop maxSize sampleSize reads ⟨state.digest.update chunk, extendSample sampleSize state.sample chunk⟩

/-- What runs while the file is open. -/
def copyOpened (maxSize sampleSize : Nat) (reads : List (Except PyException Bytes)) : DestinationProgram Accumulators := do
  let state ← copyLoop io maxSize sampleSize reads ⟨.empty, []⟩
  lift (require (state.digest.bytesProcessed ≠ 0) emptyUpload)
  lift (call io.syncFault .os)
  lift (call io.chmodFault .os)
  return state

/-- `_copy_stream`: the file is opened, copied into, synchronised and closed. -/
def copyStream (maxSize sampleSize : Nat) (reads : List (Except PyException Bytes)) : DestinationProgram CopyResult := do
  tryExcept (osOpen io) fun e => raise (storeError e)
  let state ← Program.tryFinally (tryExcept (copyOpened io maxSize sampleSize reads) fun e => raise (storeError e))
    (lift (call io.closeFault .os))
  return ⟨state.digest.bytesProcessed, state.digest.hexdigest, state.sample⟩

end Streaming

def accumulated (sampleSize : Nat) (content : Bytes) : Accumulators :=
  ⟨⟨content, content.length⟩, content.take sampleSize⟩

theorem accumulated_nil (sampleSize : Nat) : accumulated sampleSize [] = ⟨.empty, []⟩ := by
  rw [accumulated, List.take_nil]
  rfl

/-- The sample stays the first bytes of what was read. -/
theorem extendSample_take (sampleSize : Nat) (content chunk : Bytes) :
    Streaming.extendSample sampleSize (content.take sampleSize) chunk = (content ++ chunk).take sampleSize := by
  unfold Streaming.extendSample
  rw [List.take_append, List.length_take]
  by_cases hShort : content.length < sampleSize
  · rw [Nat.min_eq_right hShort.le, if_pos hShort]
  · have hLength : min sampleSize content.length = sampleSize := Nat.min_eq_left (Nat.le_of_not_lt hShort)
    rw [hLength, if_neg (Nat.lt_irrefl _), Nat.sub_eq_zero_of_le (Nat.le_of_not_lt hShort), List.take_zero, List.append_nil]

/-- One pass of the loop keeps all four in step. -/
theorem accumulated_append (sampleSize : Nat) (content : Bytes) {chunk : Bytes} (hChunk : chunk ≠ []) :
    (⟨(accumulated sampleSize content).digest.update chunk,
      Streaming.extendSample sampleSize (accumulated sampleSize content).sample chunk⟩ : Accumulators) =
      accumulated sampleSize (content ++ chunk) := by
  have hDigest : (accumulated sampleSize content).digest.update chunk = ⟨content ++ chunk, (content ++ chunk).length⟩ := by
    rw [StreamingSha256.update, if_neg hChunk, List.length_append]
    rfl
  have hSample : Streaming.extendSample sampleSize (accumulated sampleSize content).sample chunk =
      (content ++ chunk).take sampleSize := extendSample_take sampleSize content chunk
  rw [hDigest, hSample]
  rfl

/-- Every write takes some of the bytes it is given. -/
def CopyIo.WritesSome (io : CopyIo) : Prop :=
  ∀ calls view, view ≠ [] → ∃ written, io.osWrite calls view = .ok written ∧ 0 < written

/-- No call on the destination fails. -/
structure CopyIo.Reliable (io : CopyIo) : Prop where
  opened : io.openFault = none
  writes : io.WritesSome
  synced : io.syncFault = none
  chmodded : io.chmodFault = none
  closed : io.closeFault = none

section Refinement

variable (io : CopyIo)

/-- A chunk is written as a whole, or a part of it before a write that fails. -/
theorem writeAll_run (view content : Bytes) (destination : Destination) (hFile : destination.file = some content) :
    ∃ writes, Streaming.writeAll io view destination = (.ok (), ⟨some (content ++ view), writes⟩) ∨
      ¬io.WritesSome ∧ ∃ e count,
        Streaming.writeAll io view destination = (.error (.os e), ⟨some (content ++ view.take count), writes⟩) := by
  induction hLength : view.length using Nat.strong_induction_on generalizing view content destination with
  | _ length ih =>
      obtain ⟨file, calls⟩ := destination
      subst hFile
      rw [Streaming.writeAll]
      by_cases hView : view = []
      · rw [dif_pos hView, hView, List.append_nil]
        exact ⟨calls, Or.inl rfl⟩
      rw [dif_neg hView]
      rcases hWrite : io.osWrite calls view with e | written
      · have hRun : Streaming.osWrite io view ⟨some content, calls⟩ = (.error (.os e), ⟨some content, calls + 1⟩) := by
          simp only [Streaming.osWrite, hWrite]
        have hFails : ¬io.WritesSome := by
          intro h
          obtain ⟨written, hOk, -⟩ := h calls view hView
          cases hWrite.symm.trans hOk
        refine ⟨calls + 1, Or.inr ⟨hFails, e, 0, ?_⟩⟩
        rw [bind_error hRun, List.take_zero, List.append_nil]
      have hRun : Streaming.osWrite io view ⟨some content, calls⟩ =
          (.ok written, ⟨some (content ++ view.take written), calls + 1⟩) := by
        simp only [Streaming.osWrite, hWrite, Option.map_some]
      rw [bind_ok hRun]
      by_cases hWritten : written = 0
      · have hFails : ¬io.WritesSome := by
          intro h
          obtain ⟨taken, hOk, hTaken⟩ := h calls view hView
          cases hWrite.symm.trans hOk
          omega
        refine ⟨calls + 1, Or.inr ⟨hFails, .other, 0, ?_⟩⟩
        rw [dif_pos hWritten, hWritten, List.take_zero]
        rfl
      rw [dif_neg hWritten]
      have hShorter : (view.drop written).length < length := by
        have hPositive := List.length_pos_iff.mpr hView
        rw [List.length_drop]
        omega
      obtain ⟨writes, hRest | ⟨hFails, e, count, hRest⟩⟩ :=
        ih _ hShorter (view.drop written) (content ++ view.take written) ⟨some (content ++ view.take written), calls + 1⟩
          rfl rfl
      · refine ⟨writes, Or.inl ?_⟩
        rw [hRest, List.append_assoc, List.take_append_drop]
      · refine ⟨writes, Or.inr ⟨hFails, e, written + count, ?_⟩⟩
        rw [hRest, List.append_assoc, List.take_add]

variable (maxSize sampleSize : Nat)

/-- The loop reads the faults of the chunks that are left. -/
theorem copyChunks_congr {first second : Nat → Option (OSError × Nat)} (reads : List (Except PyException Bytes))
    (index : Nat) (written : Bytes) (h : ∀ i, index ≤ i → first i = second i) :
    copyChunks maxSize first reads index written = copyChunks maxSize second reads index written := by
  induction reads generalizing index written with
  | nil => rfl
  | cons read reads ih =>
      cases read with
      | error e => rfl
      | ok chunk =>
          unfold copyChunks
          rw [h index le_rfl]
          rcases second index with _ | fault
          · rw [ih (index + 1) (written ++ chunk) fun i hi => h i (by omega)]
          · rfl

/-- What the loop leaves after bytes that a coarse copy leaves. -/
def coarseOutcome (coarse : Except PyException Unit × Bytes) (writes : Nat) :
    Except PyException Accumulators × Destination :=
  (coarse.1.map fun _ => accumulated sampleSize coarse.2, ⟨some coarse.2, writes⟩)

/-- The loop leaves what the coarse one does, in an environment that fails in the
same chunk. -/
theorem copyLoop_coarse (reads : List (Except PyException Bytes)) (index : Nat) (content : Bytes)
    (destination : Destination) (hFile : destination.file = some content) :
    ∃ writeFault writes, (io.WritesSome → ∀ i, writeFault i = none) ∧
      Streaming.copyLoop io maxSize sampleSize reads (accumulated sampleSize content) destination =
        coarseOutcome sampleSize (copyChunks maxSize writeFault reads index content) writes := by
  induction reads generalizing index content destination with
  | nil =>
      obtain ⟨file, calls⟩ := destination
      subst hFile
      exact ⟨fun _ => none, calls, fun _ _ => rfl, rfl⟩
  | cons read reads ih =>
      cases read with
      | error e =>
          obtain ⟨file, calls⟩ := destination
          subst hFile
          exact ⟨fun _ => none, calls, fun _ _ => rfl, rfl⟩
      | ok chunk =>
          unfold Streaming.copyLoop copyChunks
          by_cases hEmpty : chunk = []
          · obtain ⟨file, calls⟩ := destination
            subst hFile
            refine ⟨fun _ => none, calls, fun _ _ => rfl, ?_⟩
            rw [if_pos hEmpty, if_pos hEmpty]
            rfl
          by_cases hLarge : maxSize < content.length + chunk.length
          · obtain ⟨file, calls⟩ := destination
            subst hFile
            refine ⟨fun _ => none, calls, fun _ _ => rfl, ?_⟩
            rw [if_neg hEmpty, if_neg hEmpty, if_pos hLarge]
            exact congrFun (if_pos hLarge) _
          simp only [if_neg hEmpty, if_neg hLarge]
          have hStep : (if maxSize < (accumulated sampleSize content).digest.bytesProcessed + chunk.length
              then raise payloadTooLarge
              else do
                Streaming.writeAll io chunk
                Streaming.copyLoop io maxSize sampleSize reads
                  ⟨(accumulated sampleSize content).digest.update chunk,
                    Streaming.extendSample sampleSize (accumulated sampleSize content).sample chunk⟩) =
              (do
                Streaming.writeAll io chunk
                Streaming.copyLoop io maxSize sampleSize reads (accumulated sampleSize (content ++ chunk))) := by
            rw [accumulated_append sampleSize content hEmpty]
            exact if_neg hLarge
          rw [hStep]
          obtain ⟨calls, hWrite | ⟨hFails, e, count, hWrite⟩⟩ := writeAll_run io chunk content destination hFile
          · obtain ⟨writeFault, writes, hNone, hRest⟩ := ih (index + 1) (content ++ chunk) ⟨some (content ++ chunk), calls⟩ rfl
            refine ⟨fun i => if i = index then none else writeFault i, writes, ?_, ?_⟩
            · intro h i
              exact (ite_eq_left_iff.mpr fun _ => hNone h i)
            · have hLater := copyChunks_congr maxSize reads (index + 1) (content ++ chunk)
                fun i (hi : index + 1 ≤ i) => (if_neg (show i ≠ index by omega) :
                  (if i = index then none else writeFault i) = writeFault i)
              rw [bind_ok hWrite, hRest, ← hLater]
              simp only [if_true]
          · refine ⟨fun _ => some (e, count), calls, fun h => absurd h hFails, ?_⟩
            rw [bind_error hWrite]
            rfl

/-- The environment in which the chunks are written as wholes. -/
def CopyIo.coarse (env : UploadEnvironment) (writeFault : Nat → Option (OSError × Nat)) : UploadEnvironment :=
  { env with
    openFault := io.openFault
    writeFault := writeFault
    syncFault := io.syncFault
    chmodFault := io.chmodFault
    closeFault := io.closeFault }

theorem copyOpened_coarse (env : UploadEnvironment) (writeFault : Nat → Option (OSError × Nat))
    (reads : List (Except PyException Bytes)) {writes : Nat} {coarse : Except PyException Unit × Bytes}
    (hLoop : Streaming.copyLoop io maxSize sampleSize reads ⟨.empty, []⟩ ⟨some [], 0⟩ =
      coarseOutcome sampleSize coarse writes) :
    (tryExcept (Streaming.copyOpened io maxSize sampleSize reads) fun e => raise (storeError e)) ⟨some [], 0⟩ =
      ((finishCopy (io.coarse env writeFault) coarse).map (accumulated sampleSize), ⟨some coarse.2, writes⟩) := by
  obtain ⟨outcome, body⟩ := coarse
  cases outcome with
  | error e =>
      have hOpened : Streaming.copyOpened io maxSize sampleSize reads ⟨some [], 0⟩ = (.error e, ⟨some body, writes⟩) :=
        bind_error hLoop _
      rw [tryExcept_error hOpened]
      rfl
  | ok _ =>
      have hOpened : Streaming.copyOpened io maxSize sampleSize reads ⟨some [], 0⟩ =
          (do
            lift (require (body.length ≠ 0) emptyUpload)
            lift (call io.syncFault .os)
            lift (call io.chmodFault .os)
            return accumulated sampleSize body : DestinationProgram Accumulators) ⟨some body, writes⟩ :=
        bind_ok hLoop _
      rw [tryExcept, hOpened]
      unfold finishCopy
      by_cases hBody : body = []
      · rw [hBody]
        rfl
      · have hLength : body.length ≠ 0 := fun h => hBody (List.length_eq_zero_iff.mp h)
        rw [require, require, if_pos hLength, if_pos hBody]
        rcases hSync : io.syncFault with _ | e
        · rcases hChmod : io.chmodFault with _ | e <;> simp only [CopyIo.coarse, hSync, hChmod] <;> rfl
        · simp only [CopyIo.coarse, hSync]
          rfl

/-- What closing the descriptor makes of an outcome. -/
def closing {α : Type} (closeFault : Option OSError) (outcome : Except PyException α) : Except PyException α :=
  match call closeFault .os with
  | .ok _ => outcome
  | .error e => .error e

/-- Every copy, write by write, is a copy of the coarse model on the tree. -/
theorem copyStream_coarse (env : UploadEnvironment) (reads : List (Except PyException Bytes)) (path : List PyStr)
    (tree : Directory) (hFree : ∀ content, ∃ created, createFile path content tree = some created) :
    ∃ writeFault,
      (Streaming.copyStream io env.settings.maxUploadSize env.settings.uploadMagicSampleSize reads ⟨none, 0⟩).1 =
        (UploadService.copyStream (io.coarse env writeFault) reads path tree).1.map (fun body =>
          ⟨body.length, Sha256.hexdigest body, body.take env.settings.uploadMagicSampleSize⟩) ∧
      match (Streaming.copyStream io env.settings.maxUploadSize env.settings.uploadMagicSampleSize reads ⟨none, 0⟩).2.file with
      | none => (UploadService.copyStream (io.coarse env writeFault) reads path tree).2 = tree
      | some written =>
          createFile path written tree = some (UploadService.copyStream (io.coarse env writeFault) reads path tree).2 := by
  rcases hOpen : io.openFault with _ | e
  · obtain ⟨writeFault, writes, -, hLoop⟩ := copyLoop_coarse io env.settings.maxUploadSize
      env.settings.uploadMagicSampleSize reads 0 [] ⟨some [], 0⟩ rfl
    rw [accumulated_nil] at hLoop
    obtain ⟨created, hCreate⟩ := hFree (copyChunks env.settings.maxUploadSize writeFault reads 0 []).2
    have hOpened : Streaming.osOpen io ⟨none, 0⟩ = (.ok (), ⟨some [], 0⟩) := by simp only [Streaming.osOpen, hOpen]
    have hTry := copyOpened_coarse io env.settings.maxUploadSize env.settings.uploadMagicSampleSize env writeFault reads hLoop
    have hCoarse : UploadService.copyStream (io.coarse env writeFault) reads path tree =
        (closing io.closeFault (finishCopy (io.coarse env writeFault)
          (copyChunks env.settings.maxUploadSize writeFault reads 0 [])), created) := by
      have hCreated : createFile path (copyChunks (io.coarse env writeFault).settings.maxUploadSize
          (io.coarse env writeFault).writeFault reads 0 []).2 tree = some created := hCreate
      unfold UploadService.copyStream
      change (lift (call io.openFault _) >>= _) tree = _
      rw [hOpen, call, bind_ok (lift_apply (.ok ()) tree), read_bind, id, hCreated]
      change Program.tryFinally (lift (finishCopy (io.coarse env writeFault)
        (copyChunks env.settings.maxUploadSize writeFault reads 0 []))) (lift (call io.closeFault .os)) created = _
      rw [tryFinally_run (lift_apply _ created) (lift_apply _ created), closing]
      cases call io.closeFault .os <;> rfl
    refine ⟨writeFault, ?_⟩
    rw [hCoarse]
    unfold Streaming.copyStream
    rw [bind_ok (tryExcept_ok hOpened), bind_def, tryFinally_run hTry (lift_apply _ _)]
    rcases hFinish : finishCopy (io.coarse env writeFault)
      (copyChunks env.settings.maxUploadSize writeFault reads 0 []) with e | body
    · rcases io.closeFault with _ | fault <;> exact ⟨rfl, hCreate⟩
    · rcases io.closeFault with _ | fault <;> exact ⟨rfl, hCreate⟩
  · have hOpened : Streaming.osOpen io ⟨none, 0⟩ = (.error (.os e), ⟨none, 0⟩) := by simp only [Streaming.osOpen, hOpen]
    have hCoarse : UploadService.copyStream (io.coarse env fun _ => none) reads path tree =
        (.error (storeError (.os e)), tree) := by
      unfold UploadService.copyStream
      change (lift (call io.openFault _) >>= _) tree = _
      rw [hOpen, call, lift_error_bind]
    refine ⟨fun _ => none, ?_⟩
    rw [hCoarse]
    unfold Streaming.copyStream
    rw [bind_error (tryExcept_error hOpened)]
    exact ⟨rfl, rfl⟩

end Refinement

/-- What reading `chunkSize` bytes at a time may answer. -/
structure Splits (chunkSize : Nat) (content : Bytes) (chunks : List Bytes) : Prop where
  whole : chunks.flatten = content
  nonempty : ∀ chunk ∈ chunks, chunk ≠ []
  bounded : ∀ chunk ∈ chunks, chunk.length ≤ chunkSize

/-- The outcome, by the bytes alone. -/
def copyOutcome (maxSize sampleSize : Nat) (content : Bytes) : Except PyException CopyResult :=
  if content = [] then .error emptyUpload
  else if maxSize < content.length then .error payloadTooLarge
  else .ok ⟨content.length, Sha256.hexdigest content, content.take sampleSize⟩

section Copy

variable (maxSize sampleSize : Nat)

/-- The copy succeeds for sizes from one byte to the limit. -/
theorem copyOutcome_eq_ok {content : Bytes} {result : CopyResult} :
    copyOutcome maxSize sampleSize content = .ok result ↔ 0 < content.length ∧ content.length ≤ maxSize ∧
      result = ⟨content.length, Sha256.hexdigest content, content.take sampleSize⟩ := by
  unfold copyOutcome
  by_cases hEmpty : content = []
  · rw [if_pos hEmpty, hEmpty]
    exact ⟨nofun, fun h => absurd h.1 (Nat.lt_irrefl 0)⟩
  rw [if_neg hEmpty]
  by_cases hLarge : maxSize < content.length
  · rw [if_pos hLarge]
    exact ⟨nofun, fun h => absurd h.2.1 (Nat.not_le.mpr hLarge)⟩
  · rw [if_neg hLarge, Except.ok.injEq]
    constructor
    · intro h
      exact ⟨List.length_pos_iff.mpr hEmpty, Nat.le_of_not_lt hLarge, h.symm⟩
    · intro h
      exact h.2.2.symm

theorem copyOutcome_eq_tooLarge {content : Bytes} :
    copyOutcome maxSize sampleSize content = .error payloadTooLarge ↔ maxSize < content.length := by
  unfold copyOutcome
  by_cases hEmpty : content = []
  · rw [if_pos hEmpty, hEmpty]
    exact ⟨nofun, nofun⟩
  rw [if_neg hEmpty]
  by_cases hLarge : maxSize < content.length
  · rw [if_pos hLarge]
    exact ⟨fun _ => hLarge, fun _ => rfl⟩
  · rw [if_neg hLarge]
    exact ⟨nofun, fun h => absurd h hLarge⟩

theorem copyOutcome_eq_empty {content : Bytes} :
    copyOutcome maxSize sampleSize content = .error emptyUpload ↔ content = [] := by
  unfold copyOutcome
  by_cases hEmpty : content = []
  · rw [if_pos hEmpty]
    exact ⟨fun _ => hEmpty, fun _ => rfl⟩
  rw [if_neg hEmpty]
  by_cases hLarge : maxSize < content.length
  · rw [if_pos hLarge]
    exact ⟨nofun, fun h => absurd h hEmpty⟩
  · rw [if_neg hLarge]
    exact ⟨nofun, fun h => absurd h hEmpty⟩

/-- Chunks are written until one of them would pass the limit. -/
theorem copyChunks_faultless (chunks : List Bytes) (index : Nat) (written : Bytes) (hChunks : ∀ chunk ∈ chunks, chunk ≠ [])
    (hWritten : written.length ≤ maxSize) :
    ∃ part, part <+: written ++ chunks.flatten ∧ part.length ≤ maxSize ∧
      ((written ++ chunks.flatten).length ≤ maxSize → part = written ++ chunks.flatten) ∧
      copyChunks maxSize (fun _ => none) (chunks.map Except.ok) index written =
        (if maxSize < (written ++ chunks.flatten).length then .error payloadTooLarge else .ok (), part) := by
  induction chunks generalizing index written with
  | nil =>
      rw [List.flatten_nil, List.append_nil, if_neg (Nat.not_lt.mpr hWritten)]
      exact ⟨written, List.prefix_rfl, hWritten, fun _ => rfl, rfl⟩
  | cons chunk chunks ih =>
      rw [List.flatten_cons, ← List.append_assoc]
      unfold copyChunks
      rw [List.map_cons]
      simp only [if_neg (hChunks chunk List.mem_cons_self)]
      by_cases hLarge : maxSize < written.length + chunk.length
      · have hTotal : maxSize < (written ++ chunk ++ chunks.flatten).length := by
          rw [List.length_append, List.length_append]
          omega
        refine ⟨written, ?_, hWritten, fun h => absurd h (Nat.not_le.mpr hTotal), ?_⟩
        · rw [List.append_assoc]
          exact List.prefix_append written _
        · rw [if_pos hLarge, if_pos hTotal]
      · rw [if_neg hLarge]
        apply ih (index + 1) (written ++ chunk) fun other h => hChunks other (List.mem_cons_of_mem _ h)
        rw [List.length_append]
        omega

variable {io : CopyIo}

/-- Where writes take some bytes, the loop writes all that the limit allows. -/
theorem copyLoop_run (hIo : io.WritesSome) {chunks : List Bytes} (hChunks : ∀ chunk ∈ chunks, chunk ≠ []) :
    ∃ part writes, part <+: chunks.flatten ∧ part.length ≤ maxSize ∧
      (chunks.flatten.length ≤ maxSize → part = chunks.flatten) ∧
      Streaming.copyLoop io maxSize sampleSize (chunks.map Except.ok) ⟨.empty, []⟩ ⟨some [], 0⟩ =
        (if maxSize < chunks.flatten.length then .error payloadTooLarge else .ok (accumulated sampleSize part),
          ⟨some part, writes⟩) := by
  obtain ⟨writeFault, writes, hNone, hCoarse⟩ :=
    copyLoop_coarse io maxSize sampleSize (chunks.map Except.ok) 0 [] ⟨some [], 0⟩ rfl
  have hFaultless : writeFault = fun _ => none := funext (hNone hIo)
  obtain ⟨part, hPrefix, hLength, hWhole, hRun⟩ := copyChunks_faultless maxSize chunks 0 [] hChunks (Nat.zero_le _)
  rw [hFaultless, hRun] at hCoarse
  rw [accumulated_nil] at hCoarse
  refine ⟨part, writes, hPrefix, hLength, hWhole, ?_⟩
  rw [hCoarse]
  by_cases hLarge : maxSize < chunks.flatten.length
  · simp only [List.nil_append, if_pos hLarge]
    rfl
  · simp only [List.nil_append, if_neg hLarge]
    rfl

/-- Where no call fails, the copy has the outcome that the bytes ask for. -/
theorem copyStream_run (hIo : io.Reliable) {chunkSize : Nat} {content : Bytes} {chunks : List Bytes}
    (hSplits : Splits chunkSize content chunks) :
    ∃ part writes, part <+: content ∧ part.length ≤ maxSize ∧ (content.length ≤ maxSize → part = content) ∧
      Streaming.copyStream io maxSize sampleSize (chunks.map Except.ok) ⟨none, 0⟩ =
        (copyOutcome maxSize sampleSize content, ⟨some part, writes⟩) := by
  obtain ⟨part, writes, hPrefix, hLength, hWhole, hLoop⟩ := copyLoop_run maxSize sampleSize hIo.writes hSplits.nonempty
  rw [hSplits.whole] at hPrefix hWhole hLoop
  refine ⟨part, writes, hPrefix, hLength, hWhole, ?_⟩
  have hOpen : Streaming.osOpen io ⟨none, 0⟩ = (.ok (), ⟨some [], 0⟩) := by simp only [Streaming.osOpen, hIo.opened]
  have hClose : (lift (call io.closeFault .os) : DestinationProgram Unit) ⟨some part, writes⟩ =
      (.ok (), ⟨some part, writes⟩) := by rw [hIo.closed]; rfl
  have hOpened : Streaming.copyOpened io maxSize sampleSize (chunks.map Except.ok) ⟨some [], 0⟩ =
      ((if content = [] then .error emptyUpload else if maxSize < content.length then .error payloadTooLarge
        else .ok (accumulated sampleSize content)), ⟨some part, writes⟩) := by
    unfold Streaming.copyOpened
    by_cases hLarge : maxSize < content.length
    · have hContent : content ≠ [] := List.ne_nil_of_length_pos (by omega)
      rw [if_pos hLarge] at hLoop
      rw [bind_error hLoop, if_neg hContent, if_pos hLarge]
    · obtain rfl := hWhole (Nat.le_of_not_lt hLarge)
      rw [if_neg hLarge] at hLoop
      rw [bind_ok hLoop, hIo.synced, hIo.chmodded]
      by_cases hContent : part = []
      · rw [if_pos hContent, hContent]
        rfl
      · have hSize : (accumulated sampleSize part).digest.bytesProcessed ≠ 0 := fun h =>
          hContent (List.length_eq_zero_iff.mp h)
        rw [if_neg hContent, if_neg hLarge, require, if_pos hSize]
        rfl
  unfold Streaming.copyStream
  rw [bind_ok (tryExcept_ok hOpen), copyOutcome]
  by_cases hContent : content = []
  · rw [if_pos hContent] at hOpened ⊢
    exact bind_error (tryFinally_run (tryExcept_error hOpened) hClose) _
  rw [if_neg hContent] at hOpened ⊢
  by_cases hLarge : maxSize < content.length
  · rw [if_pos hLarge] at hOpened ⊢
    exact bind_error (tryFinally_run (tryExcept_error hOpened) hClose) _
  · rw [if_neg hLarge] at hOpened ⊢
    exact bind_ok (tryFinally_run (tryExcept_ok hOpened) hClose) _

/-- The copy by the bytes alone, however they arrive and are taken. -/
theorem copyStream_exact (io : CopyIo) (hIo : io.Reliable) (chunkSize : Nat) (content : Bytes) (chunks : List Bytes)
    (hSplits : Splits chunkSize content chunks) :
    ((∃ result, (Streaming.copyStream io maxSize sampleSize (chunks.map Except.ok) ⟨none, 0⟩).1 = .ok result) ↔
        0 < content.length ∧ content.length ≤ maxSize) ∧
      (∀ result, (Streaming.copyStream io maxSize sampleSize (chunks.map Except.ok) ⟨none, 0⟩).1 = .ok result →
        (Streaming.copyStream io maxSize sampleSize (chunks.map Except.ok) ⟨none, 0⟩).2.file = some content ∧
          result.sizeBytes = content.length ∧ result.sha256 = Sha256.hexdigest content ∧
          result.signatureSample = content.take (min sampleSize content.length)) ∧
      ((Streaming.copyStream io maxSize sampleSize (chunks.map Except.ok) ⟨none, 0⟩).1 = .error payloadTooLarge ↔
        maxSize < content.length) ∧
      (∃ written, (Streaming.copyStream io maxSize sampleSize (chunks.map Except.ok) ⟨none, 0⟩).2.file = some written ∧
        written <+: content ∧ written.length ≤ maxSize) ∧
      ((Streaming.copyStream io maxSize sampleSize (chunks.map Except.ok) ⟨none, 0⟩).1 = .error emptyUpload ↔
        content = []) ∧
      ∀ (otherIo : CopyIo) (otherChunkSize : Nat) (otherChunks : List Bytes), otherIo.Reliable →
        Splits otherChunkSize content otherChunks →
        (Streaming.copyStream otherIo maxSize sampleSize (otherChunks.map Except.ok) ⟨none, 0⟩).1 =
          (Streaming.copyStream io maxSize sampleSize (chunks.map Except.ok) ⟨none, 0⟩).1 := by
  obtain ⟨part, writes, hPrefix, hLength, hWhole, hRun⟩ := copyStream_run maxSize sampleSize hIo hSplits
  rw [hRun]
  have hOther : ∀ (otherIo : CopyIo) (otherChunkSize : Nat) (otherChunks : List Bytes), otherIo.Reliable →
      Splits otherChunkSize content otherChunks →
      (Streaming.copyStream otherIo maxSize sampleSize (otherChunks.map Except.ok) ⟨none, 0⟩).1 =
        copyOutcome maxSize sampleSize content := by
    intro otherIo otherChunkSize otherChunks hOtherIo hOtherSplits
    obtain ⟨_, _, -, -, -, hOtherRun⟩ := copyStream_run maxSize sampleSize hOtherIo hOtherSplits
    rw [hOtherRun]
  refine ⟨?_, ?_, copyOutcome_eq_tooLarge maxSize sampleSize, ⟨part, rfl, hPrefix, hLength⟩,
    copyOutcome_eq_empty maxSize sampleSize, hOther⟩
  · constructor
    · intro h
      obtain ⟨result, hResult⟩ := h
      have hOk := (copyOutcome_eq_ok maxSize sampleSize).mp hResult
      exact ⟨hOk.1, hOk.2.1⟩
    · intro h
      exact ⟨_, (copyOutcome_eq_ok maxSize sampleSize).mpr ⟨h.1, h.2, rfl⟩⟩
  · intro result hResult
    obtain ⟨-, hSmall, rfl⟩ := (copyOutcome_eq_ok maxSize sampleSize).mp hResult
    have hSample : content.take (min sampleSize content.length) = content.take sampleSize := by
      rw [← List.take_take, List.take_length]
    exact ⟨congrArg some (hWhole hSmall), rfl, rfl, hSample.symm⟩

/-- Two reads of a short file, taken one byte at a time. -/
def sampleIo : CopyIo := ⟨none, fun _ _ => .ok 1, none, none, none⟩

theorem sampleIo_reliable : sampleIo.Reliable :=
  ⟨rfl, fun _ _ _ => ⟨1, rfl, Nat.one_pos⟩, rfl, rfl, rfl⟩

theorem sampleSplits : Splits 2 [0x50, 0x4B, 0x03] [[0x50, 0x4B], [0x03]] :=
  ⟨rfl, by decide, by decide⟩

theorem copyStream_exact_sample :
    (∃ result, (Streaming.copyStream sampleIo 3 2 ([[0x50, 0x4B], [0x03]].map Except.ok) ⟨none, 0⟩).1 = .ok result) ∧
      (Streaming.copyStream sampleIo 2 2 ([[0x50, 0x4B], [0x03]].map Except.ok) ⟨none, 0⟩).1 = .error payloadTooLarge := by
  have hFits := copyStream_exact 3 2 sampleIo sampleIo_reliable 2 _ _ sampleSplits
  have hPasses := copyStream_exact 2 2 sampleIo sampleIo_reliable 2 _ _ sampleSplits
  exact ⟨hFits.1.mpr (by decide), hPasses.2.2.1.mpr (by decide)⟩

end Copy

end SoftwareHub.Lifecycle
