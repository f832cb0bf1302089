import StreamFs.Pool.Stream

/-!
The producer of the sample plugin, which cuts what `curl` hands over into chunks
(`SamplePlugin.cpp`).

* `WriteArgs`: a call of `write`, with the bytes behind its pointer.
* `SampleProducer`: the chunk that is being filled, up to `mCurrentOffset`, and the chunks queued so
  far. The offset stays within the chunk.
* `writeBody`, `writeLoop`, `write`: the body of the loop, the loop, and the call. `loop`: all calls
  of a transfer, and the last chunk.
* `Holds`: the chunks queued are full, and hold given bytes together with the one that is being
  filled. `Holds.writeBody`, `Holds.writeLoop`, `Holds.write`: what is written is added to them.
* `IsChunking`: the chunks queued are full but for the last one, and hold given bytes.
  `IsChunking.unique`: the bytes determine them.
* `chunking_independent`: how the bytes are divided into calls does not matter.
* `readLoop`, `readFile`: the way from a file, which is cut into the same chunks
  (`readFile_agrees`).
-/

namespace StreamFs

/-- The `n` bytes at `ptr` laid down in a chunk from position `pos` on. -/
def BufferChunk.copyIn (c : BufferChunk) (pos : ℕ) (ptr : List UInt8)
    (h : pos + ptr.length ≤ bufferChunkSize) : BufferChunk where
  data := c.data.take pos ++ ptr ++ c.data.drop (pos + ptr.length)
  length_eq := by
    have hc := c.length_eq
    simp only [List.length_append, List.length_take, List.length_drop]
    omega

/-- A call of `write`: `nmemb` items of `size` bytes at `ptr`. -/
structure WriteArgs where
  ptr : List UInt8
  size : ℕ
  nmemb : ℕ
  length_eq : ptr.length = size * nmemb
  length_lt : ptr.length < 2 ^ 64

/-- The producer, with the calls of `queueBuffer` it has made. -/
structure SampleProducer where
  tempBuffer : BufferChunk
  mCurrentOffset : ℕ
  queued : List PushArgs
  offset_lt : mCurrentOffset < bufferChunkSize

namespace SampleProducer

/-- A new producer. Its chunk holds what the memory held. -/
def create (tempBuffer : BufferChunk) : SampleProducer :=
  ⟨tempBuffer, 0, [], by decide⟩

/-- `writeLength` with `remaining_data` bytes to go. -/
def writeLength (p : SampleProducer) (remaining_data : ℕ) : ℕ :=
  min (bufferChunkSize - p.mCurrentOffset) remaining_data

/-- The bytes that the body copies. -/
def piece (p : SampleProducer) (ptr : List UInt8) (total_size remaining_data : ℕ) : List UInt8 :=
  slice ptr (total_size - remaining_data) (p.writeLength remaining_data)

lemma length_piece_le (p : SampleProducer) (ptr : List UInt8) (total_size remaining_data : ℕ) :
    p.mCurrentOffset + (p.piece ptr total_size remaining_data).length ≤ bufferChunkSize := by
  have h := p.offset_lt
  rw [piece, length_slice, writeLength]
  omega

/-- The body of the loop of `write`. -/
def writeBody (p : SampleProducer) (ptr : List UInt8) (total_size remaining_data : ℕ) :
    SampleProducer :=
  let tempBuffer := p.tempBuffer.copyIn p.mCurrentOffset (p.piece ptr total_size remaining_data)
    (p.length_piece_le ptr total_size remaining_data)
  let mCurrentOffset := p.mCurrentOffset + p.writeLength remaining_data
  if h : mCurrentOffset = bufferChunkSize then
    ⟨tempBuffer, 0, p.queued ++ [⟨tempBuffer, false, bufferChunkSize⟩], by decide⟩
  else
    ⟨tempBuffer, mCurrentOffset, p.queued, by
      have hlt := p.offset_lt
      have hle : p.writeLength remaining_data ≤ bufferChunkSize - p.mCurrentOffset :=
        Nat.min_le_left _ _
      omega⟩

/-- The loop of `write`. -/
def writeLoop (p : SampleProducer) (ptr : List UInt8) (total_size remaining_data : ℕ) :
    SampleProducer :=
  if 0 < remaining_data then
    (p.writeBody ptr total_size remaining_data).writeLoop ptr total_size
      (remaining_data - p.writeLength remaining_data)
  else p
termination_by remaining_data
decreasing_by
  have hlt := p.offset_lt
  rw [writeLength]
  omega

/-- `write`, with what it returns. -/
def write (p : SampleProducer) (w : WriteArgs) : ℕ × SampleProducer :=
  let total_size := mulU64 w.nmemb w.size
  (mulU64 w.size w.nmemb, p.writeLoop w.ptr total_size total_size)

/-- The calls of `write` during a transfer, with what they return. -/
def writeAll (p : SampleProducer) : List WriteArgs → List ℕ × SampleProducer
  | [] => ([], p)
  | w :: ws =>
      let rest := (p.write w).2.writeAll ws
      ((p.write w).1 :: rest.1, rest.2)

/-- `loop`: a transfer, and the last chunk. It gives what the calls of `write` return, and the calls
of `queueBuffer`. -/
def loop (p : SampleProducer) (ws : List WriteArgs) : List ℕ × List PushArgs :=
  let done := p.writeAll ws
  (done.1, done.2.queued ++ [⟨done.2.tempBuffer, true, done.2.mCurrentOffset⟩])

/-- The arguments that queue a full chunk. -/
def fullChunk (c : BufferChunk) : PushArgs := ⟨c, false, bufferChunkSize⟩

/-- The chunks queued are full, and they and the chunk that is being filled hold `B`. -/
def Holds (p : SampleProducer) (B : List UInt8) : Prop :=
  ∃ chunks, p.queued = chunks.map fullChunk ∧
    streamBytes id chunks ++ p.tempBuffer.data.take p.mCurrentOffset = B

/-- Full chunks and a last one that is not full hold `B`. -/
def IsChunking (queued : List PushArgs) (B : List UInt8) : Prop :=
  ∃ chunks last size, queued = chunks.map fullChunk ++ [⟨last, true, size⟩] ∧
    size < bufferChunkSize ∧ streamBytes id chunks ++ last.data.take size = B

variable {p : SampleProducer} {B : List UInt8}

lemma holds_create (tempBuffer : BufferChunk) : (create tempBuffer).Holds [] := ⟨[], rfl, rfl⟩

/-! ### One call -/

/-- The beginning of a chunk up to the end of what is copied in. -/
lemma take_copyIn (c : BufferChunk) {pos : ℕ} {ptr : List UInt8}
    (h : pos + ptr.length ≤ bufferChunkSize) :
    (c.copyIn pos ptr h).data.take (pos + ptr.length) = c.data.take pos ++ ptr := by
  have hlength : (c.data.take pos ++ ptr).length = pos + ptr.length := by
    have hc := c.length_eq
    rw [List.length_append, List.length_take]
    omega
  exact List.take_left' hlength

/-- The body copies as much as it counts. -/
lemma length_piece {ptr : List UInt8} {remaining_data : ℕ} (h : remaining_data ≤ ptr.length) :
    (p.piece ptr ptr.length remaining_data).length = p.writeLength remaining_data := by
  rw [piece, length_slice, writeLength]
  omega

/-- **The body of the loop** adds its piece to the bytes. -/
lemma Holds.writeBody (hp : p.Holds B) {ptr : List UInt8} {remaining_data : ℕ}
    (h : remaining_data ≤ ptr.length) :
    (p.writeBody ptr ptr.length remaining_data).Holds
      (B ++ p.piece ptr ptr.length remaining_data) := by
  obtain ⟨chunks, hqueued, hbytes⟩ := hp
  have htake := take_copyIn p.tempBuffer (p.length_piece_le ptr ptr.length remaining_data)
  rw [length_piece h] at htake
  rw [SampleProducer.writeBody]
  split
  · -- the chunk is full
    rename_i hfull
    refine ⟨chunks ++ [_], by rw [hqueued, List.map_append]; rfl, ?_⟩
    rw [hfull, List.take_of_length_le (BufferChunk.length_eq _).le] at htake
    simp only [streamBytes, List.map_append, List.flatten_append, List.map_cons, List.map_nil,
      List.flatten_cons, List.flatten_nil, List.append_nil, List.take_zero, id] at hbytes ⊢
    rw [htake, ← List.append_assoc, hbytes]
  · refine ⟨chunks, hqueued, ?_⟩
    dsimp only
    rw [htake, ← List.append_assoc, hbytes]

/-- **The loop** adds the rest of the bytes. -/
lemma Holds.writeLoop (hp : p.Holds B) (ptr : List UInt8) {remaining_data : ℕ}
    (h : remaining_data ≤ ptr.length) :
    (p.writeLoop ptr ptr.length remaining_data).Holds
      (B ++ ptr.drop (ptr.length - remaining_data)) := by
  induction remaining_data using Nat.strong_induction_on generalizing p B with
  | _ remaining_data ih =>
      rw [SampleProducer.writeLoop]
      split
      · rename_i hpos
        have hlt := p.offset_lt
        have hle : p.writeLength remaining_data ≤ remaining_data := Nat.min_le_right _ _
        have hone : 0 < p.writeLength remaining_data := by
          rw [writeLength]
          omega
        have hrest := ih (remaining_data - p.writeLength remaining_data) (by omega)
          (hp.writeBody h) (by omega)
        -- the piece and the bytes behind it are the bytes behind the ones before
        have hpiece : p.piece ptr ptr.length remaining_data
            ++ ptr.drop (ptr.length - (remaining_data - p.writeLength remaining_data))
              = ptr.drop (ptr.length - remaining_data) := by
          have hnext : ptr.length - (remaining_data - p.writeLength remaining_data)
              = ptr.length - remaining_data + p.writeLength remaining_data := by omega
          rw [piece, slice, hnext, ← List.drop_drop, List.take_append_drop]
        rwa [List.append_assoc, hpiece] at hrest
      · obtain rfl : remaining_data = 0 := by omega
        rw [Nat.sub_zero, List.drop_length, List.append_nil]
        exact hp

/-- **A call** returns the number of its bytes and adds them. -/
lemma Holds.write (hp : p.Holds B) (w : WriteArgs) :
    (p.write w).1 = w.size * w.nmemb ∧ (p.write w).2.Holds (B ++ w.ptr) := by
  have hlt : w.size * w.nmemb < 2 ^ 64 := w.length_eq ▸ w.length_lt
  have hloop := hp.writeLoop w.ptr le_rfl
  rw [Nat.sub_self, List.drop_zero] at hloop
  rw [SampleProducer.write]
  dsimp only
  rw [mulU64_of_lt hlt, mulU64_of_lt (Nat.mul_comm .. ▸ hlt), Nat.mul_comm w.nmemb, ← w.length_eq]
  exact ⟨rfl, hloop⟩

/-! ### All calls -/

/-- The calls of a transfer. -/
lemma Holds.writeAll (hp : p.Holds B) (ws : List WriteArgs) :
    (p.writeAll ws).1 = ws.map (fun w => w.size * w.nmemb) ∧
      (p.writeAll ws).2.Holds (B ++ ws.flatMap WriteArgs.ptr) := by
  induction ws generalizing p B with
  | nil => exact ⟨rfl, by rw [List.flatMap_nil, List.append_nil]; exact hp⟩
  | cons w ws ih =>
      obtain ⟨hreturn, hw⟩ := hp.write w
      obtain ⟨hreturns, hrest⟩ := ih hw
      rw [SampleProducer.writeAll, List.map_cons, List.flatMap_cons, ← List.append_assoc]
      exact ⟨by rw [hreturn, hreturns], hrest⟩

/-- The last chunk completes a chunking. -/
lemma Holds.isChunking (hp : p.Holds B) :
    IsChunking (p.queued ++ [⟨p.tempBuffer, true, p.mCurrentOffset⟩]) B := by
  obtain ⟨chunks, hqueued, hbytes⟩ := hp
  exact ⟨chunks, p.tempBuffer, p.mCurrentOffset, by rw [hqueued], p.offset_lt, hbytes⟩

lemma data_injective : Function.Injective BufferChunk.data := by
  rintro ⟨data, hdata⟩ ⟨data', hdata'⟩ rfl
  rfl

/-- **The bytes determine the chunks** but for what the last one holds behind its end. -/
lemma IsChunking.unique {queued queued' : List PushArgs} (h : IsChunking queued B)
    (h' : IsChunking queued' B) :
    queued.length = queued'.length ∧ queued.dropLast = queued'.dropLast ∧
      queued.getLast?.map PushArgs.lastBufferSize
        = queued'.getLast?.map PushArgs.lastBufferSize := by
  obtain ⟨chunks, last, size, rfl, hsize, hbytes⟩ := h
  obtain ⟨chunks', last', size', rfl, hsize', hbytes'⟩ := h'
  have hlength : (last.data.take size).length = size := by
    have hlast := last.length_eq
    rw [List.length_take]
    omega
  have hlength' : (last'.data.take size').length = size' := by
    have hlast' := last'.length_eq
    rw [List.length_take]
    omega
  have huniform : ∀ cs : List BufferChunk, ∀ b ∈ cs.map (fun c => (id c).data),
      b.length = bufferChunkSize := by
    intro cs b hb
    obtain ⟨c, -, rfl⟩ := List.mem_map.mp hb
    exact c.length_eq
  obtain ⟨hdata, hrest⟩ := flatten_append_inj (huniform chunks) (huniform chunks')
    (hlength.trans_lt hsize) (hlength'.trans_lt hsize') (hbytes.trans hbytes'.symm)
  obtain rfl : chunks = chunks' := data_injective.list_map hdata
  obtain rfl : size = size' := by rw [← hlength, ← hlength', hrest]
  simp

/-- **Chunking does not depend on the division into calls.** Each call of `write` returns the number
of its bytes, the chunks queued are full but for the last one and hold the bytes written, and
another division of the same bytes queues as many chunks, the same full ones, and a last one of the
same size. -/
theorem chunking_independent (tempBuffer : BufferChunk) (ws : List WriteArgs) :
    ((create tempBuffer).loop ws).1 = ws.map (fun w => w.size * w.nmemb) ∧
      IsChunking ((create tempBuffer).loop ws).2 (ws.flatMap WriteArgs.ptr) ∧
      ∀ (tempBuffer' : BufferChunk) (ws' : List WriteArgs),
        ws'.flatMap WriteArgs.ptr = ws.flatMap WriteArgs.ptr →
          ((create tempBuffer').loop ws').2.length = ((create tempBuffer).loop ws).2.length ∧
          ((create tempBuffer').loop ws').2.dropLast
            = ((create tempBuffer).loop ws).2.dropLast ∧
          ((create tempBuffer').loop ws').2.getLast?.map PushArgs.lastBufferSize
            = ((create tempBuffer).loop ws).2.getLast?.map PushArgs.lastBufferSize := by
  obtain ⟨hreturns, hholds⟩ := (holds_create tempBuffer).writeAll ws
  refine ⟨hreturns, hholds.isChunking, fun tempBuffer' ws' hsame => ?_⟩
  obtain ⟨-, hholds'⟩ := (holds_create tempBuffer').writeAll ws'
  rw [hsame] at hholds'
  exact hholds'.isChunking.unique hholds.isChunking

/-! ### The way from a file -/

/-- What `fread` of a chunk returns. -/
def freadCount (file : List UInt8) : ℕ := (file.take bufferChunkSize).length

lemma freadCount_eq (file : List UInt8) : freadCount file = min bufferChunkSize file.length :=
  List.length_take

/-- The chunk after `fread`, with the bytes of the chunk before it behind the end of the file. -/
def fread (chunk : BufferChunk) (file : List UInt8) : BufferChunk :=
  chunk.copyIn 0 (file.take bufferChunkSize)
    (by rw [Nat.zero_add]; exact List.length_take_le _ _)

lemma take_fread (chunk : BufferChunk) (file : List UInt8) :
    (fread chunk file).data.take (freadCount file) = file.take bufferChunkSize := by
  have hle : 0 + (file.take bufferChunkSize).length ≤ bufferChunkSize := by
    rw [Nat.zero_add]
    exact List.length_take_le _ _
  have h := take_copyIn chunk hle
  simp only [Nat.zero_add, List.take_zero, List.nil_append] at h
  exact h

/-- The loop of `readFile`. Nothing sets `mMustExit`. -/
def readLoop (chunk : BufferChunk) (file : List UInt8) : List PushArgs :=
  if freadCount file = bufferChunkSize then
    ⟨fread chunk file, false, freadCount file⟩
      :: readLoop (fread chunk file) (file.drop bufferChunkSize)
  else [⟨fread chunk file, true, freadCount file⟩]
termination_by file.length
decreasing_by
  rename_i hfull
  rw [freadCount_eq, bufferChunkSize_eq] at hfull
  rw [List.length_drop, bufferChunkSize_eq]
  omega

/-- `readFile`, where the file may be missing. -/
def readFile (chunk : BufferChunk) (file : Option (List UInt8)) : List PushArgs :=
  match file with
  | none => []
  | some file => readLoop chunk file

/-- **The loop queues a chunking of the file.** -/
lemma isChunking_readLoop (chunk : BufferChunk) (file : List UInt8) :
    IsChunking (readLoop chunk file) file := by
  induction hn : file.length using Nat.strong_induction_on generalizing chunk file with
  | _ n ih =>
      have htake := take_fread chunk file
      have hcount := freadCount_eq file
      rw [readLoop]
      split
      · rename_i hfull
        obtain ⟨chunks, last, size, hqueued, hsize, hbytes⟩ :=
          ih (file.drop bufferChunkSize).length
            (by rw [List.length_drop, bufferChunkSize_eq] at *; omega) (fread chunk file) _ rfl
        refine ⟨fread chunk file :: chunks, last, size, by rw [hqueued, hfull]; rfl, hsize, ?_⟩
        rw [hfull, List.take_of_length_le (BufferChunk.length_eq _).le] at htake
        have hcons : streamBytes id (fread chunk file :: chunks)
            = file.take bufferChunkSize ++ streamBytes id chunks := congrArg (· ++ _) htake
        rw [hcons, List.append_assoc, hbytes, List.take_append_drop]
      · rename_i hshort
        refine ⟨[], _, _, rfl, by omega, ?_⟩
        rw [htake]
        exact List.take_of_length_le (by omega)

/-- **A file and a transfer of the same bytes** are cut into the same chunks. `readFile` queues full
chunks of the file and a last one that is not full, which is empty where the length of the file is a
multiple of the size of a chunk, and `loop` queues as many chunks, the same full ones, and a last
one of the same size, whatever the division of the bytes into calls of `write`. -/
theorem readFile_agrees (chunk : BufferChunk) (file : List UInt8) (tempBuffer : BufferChunk)
    (ws : List WriteArgs) (hsame : ws.flatMap WriteArgs.ptr = file) :
    IsChunking (readFile chunk (some file)) file ∧
      (readFile chunk (some file)).length = file.length / bufferChunkSize + 1 ∧
      (readFile chunk (some file)).length = ((create tempBuffer).loop ws).2.length ∧
      (readFile chunk (some file)).dropLast = ((create tempBuffer).loop ws).2.dropLast ∧
      (readFile chunk (some file)).getLast?.map PushArgs.lastBufferSize
        = ((create tempBuffer).loop ws).2.getLast?.map PushArgs.lastBufferSize := by
  have hfile := isChunking_readLoop chunk file
  obtain ⟨-, hholds⟩ := (holds_create tempBuffer).writeAll ws
  rw [List.nil_append, hsame] at hholds
  refine ⟨hfile, ?_, hfile.unique hholds.isChunking⟩
  obtain ⟨chunks, last, size, hqueued, hsize, hbytes⟩ := hfile
  have hlength := congrArg List.length hbytes
  rw [List.length_append, length_streamBytes, List.length_take, last.length_eq] at hlength
  show (readLoop chunk file).length = _
  rw [hqueued, List.length_append, List.length_map, List.length_singleton, ← hlength]
  rw [bufferChunkSize_eq] at *
  omega

/-- A file of a chunk and a hundred bytes, and the same bytes in two calls of which the second one
fills the chunk. -/
theorem readFile_agrees_twoCalls :
    (readFile (.filled 0) (some (List.replicate 9124 7))).length = 2 ∧
      (readFile (.filled 0) (some (List.replicate 9124 7))).dropLast
        = ((create (.filled 1)).loop
          [⟨List.replicate 5000 7, 1, 5000, List.length_replicate,
              List.length_replicate.trans_lt (by decide)⟩,
            ⟨List.replicate 4124 7, 4124, 1, List.length_replicate,
              List.length_replicate.trans_lt (by decide)⟩]).2.dropLast := by
  obtain ⟨-, hlength, -, hfull, -⟩ := readFile_agrees (.filled 0) (List.replicate 9124 7)
    (.filled 1)
    [⟨List.replicate 5000 7, 1, 5000, List.length_replicate,
        List.length_replicate.trans_lt (by decide)⟩,
      ⟨List.replicate 4124 7, 4124, 1, List.length_replicate,
        List.length_replicate.trans_lt (by decide)⟩]
    (by
      rw [List.flatMap_cons, List.flatMap_cons, List.flatMap_nil, List.append_nil,
        List.replicate_append_replicate])
  refine ⟨?_, hfull⟩
  rw [hlength, List.length_replicate, bufferChunkSize_eq]

end SampleProducer

end StreamFs
