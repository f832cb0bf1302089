import StreamFs.Base.Ownership
import StreamFs.Fuse.ControlFiles
import StreamFs.Fuse.DebugLevel

/-!
The file system as its clients see it: all callbacks of `IFuse.cpp` on the files that are open.

* `OpenFile`, `FileSystem`: libfuse keeps the path of each open file and the handle that
  `openCallback` has stored in its `fuse_file_info`, and passes both to the later callbacks.
* `FsEvent`, `act`, `machine`: any number of clients call, and the plugins come, go and change their
  streams meanwhile. The output is what the callback gives back, and what happens to the handles:
  one is given out at a successful open, and the plugin is called with it at a read and at
  `release`.
* `ReleasedOnce`: the loop of `release` finds the node of a file once, and none for a control file.
* `handles_released_iff`: the plugins use each handle from its open to its one release iff every
  file is released once.
-/

namespace StreamFs

open Ownership

/-- An open file. -/
structure OpenFile where
  path : Path
  fh : UInt64
  deriving DecidableEq

/-- The callbacks, the counter of the handles, and the open files. -/
structure FileSystem where
  fuse : IFuse
  fh_counter_g : UInt64
  files : ℕ → Option OpenFile

/-- The events. `result` is what the plugin returns where it is asked. -/
inductive FsEvent where
  | getattr (inf : PluginInterface) (path : Path)
  | readdir (path : Path)
  | truncate (path : Path) (length : ℤ)
  | openFile (fd : ℕ) (inf : PluginInterface) (path : Path)
  | read (fd : ℕ) (ctx : Option FuseContext) (size : ℕ) (offset result : ℤ)
  | write (fd : ℕ) (buf : List UInt8) (offset result : ℤ)
  | poll (fd : ℕ) (ctx : Option FuseContext) (ph : Option PollHandle)
  | release (fd : ℕ) (result : ℤ)
  | notifyPoll (provider filename : String)
  | registerFsProvider (provider : VirtualFSProvider)
  | removeFsProvider (id : String)
  | setNodes (id : String) (mCb : Option (List String)) (mSubProviders : List String)

/-- What a callback gives back. -/
inductive FsReply where
  | stat (result : ℤ) (stbuf : Stat)
  | names (filled : List String)
  | status (result : ℤ)
  | read (r : ReadReply)
  | poll (r : PollReply)
  | notify (r : NotifyReply)
  deriving DecidableEq

/-- The reply, and what happens to the handles. -/
structure FsOutput where
  reply : Option FsReply
  calls : List (Ownership UInt64)

/-- The path is one of a control file. -/
def IsControl (path : Path) : Prop := path = debugFilePath ∨ path = tsDumpFilePath

instance : DecidablePred IsControl := fun _ => inferInstanceAs (Decidable (_ ∨ _))

namespace IFuse

/-- How often a loop over the nodes of the provider calls the plugin. -/
def nodeCalls (f : IFuse) (path : Path) : ℕ :=
  match findProvider f.fsProviders path with
  | none => 0
  | some p =>
      if p.mCb.isSome then (p.getNodes.filter fun node => node.name = element path 1).length else 0

/-- `release`. -/
def release (f : IFuse) (path : Path) (result : ℤ) : ℤ :=
  nodeRead (findProvider f.fsProviders path) path result

/-- `truncate`. -/
def truncate (_path : Path) (_length : ℤ) : ℤ := 0

/-- `registerFsProvider`: a name that is taken stays with its provider. -/
def registerFsProvider (f : IFuse) (provider : VirtualFSProvider) : IFuse :=
  if provider.getName ∈ f.fsProviders then f
  else { f with fsProviders := f.fsProviders.insert provider.getName provider }

/-- `removeFsProvider`. -/
def removeFsProvider (f : IFuse) (id : String) : IFuse :=
  { f with fsProviders := f.fsProviders.erase id }

/-- The plugin of a provider is gone or shows other streams, or sub-providers are attached. -/
def setNodes (f : IFuse) (id : String) (mCb : Option (List String)) (mSubProviders : List String) :
    IFuse :=
  match f.fsProviders.lookup id with
  | none => f
  | some p =>
      { f with fsProviders := f.fsProviders.insert id { p with mCb, mSubProviders } }

end IFuse

namespace FileSystem

/-- No file is open. -/
def create (fuse : IFuse) : FileSystem := ⟨fuse, 0, fun _ => none⟩

/-- `openCallback`. libfuse keeps the file where the result is `0`, with the handle `0` where none
has been stored. -/
def openFile (s : FileSystem) (fd : ℕ) (inf : PluginInterface) (path : Path) :
    FileSystem × FsOutput :=
  let (r, fh_counter_g) := s.fuse.openCallback inf s.fh_counter_g path
  if r.result = 0 then
    ({ s with fh_counter_g, files := Function.update s.files fd (some ⟨path, r.fh.getD 0⟩) },
      ⟨some (.status r.result), r.fh.toList.map .acquire⟩)
  else ({ s with fh_counter_g }, ⟨some (.status r.result), []⟩)

/-- The callbacks on an open file. -/
def onFile (s : FileSystem) (fd : ℕ) (file : OpenFile) : FsEvent → FileSystem × FsOutput
  | .read _ ctx size offset result =>
      let (r, fuse) := s.fuse.readCallback ctx file.path size offset result
      ({ s with fuse },
        ⟨some (.read r),
          if IsControl file.path then []
          else List.replicate (s.fuse.nodeCalls file.path) (.use file.fh)⟩)
  | .write _ buf offset result =>
      let (r, fuse) := s.fuse.writeFileCallback file.path buf offset result
      ({ s with fuse }, ⟨some (.status r), []⟩)
  | .poll _ ctx ph =>
      let (r, fuse) := s.fuse.poll ctx file.path ph
      ({ s with fuse }, ⟨some (.poll r), []⟩)
  | .release _ result =>
      ({ s with files := Function.update s.files fd none },
        ⟨some (.status (s.fuse.release file.path result)),
          List.replicate (s.fuse.nodeCalls file.path) (.release file.fh)⟩)
  | _ => (s, ⟨none, []⟩)

/-- The open file an event is about. -/
def fileOf (s : FileSystem) : FsEvent → Option (ℕ × OpenFile)
  | .read fd _ _ _ _ | .write fd _ _ _ | .poll fd _ _ | .release fd _ =>
      (s.files fd).map (fd, ·)
  | _ => none

/-- One event. libfuse uses each place for one open file, and calls for open files only. -/
def act (s : FileSystem) : FsEvent → FileSystem × FsOutput
  | .getattr inf path =>
      let (result, stbuf) := s.fuse.getAttrCallback inf path
      (s, ⟨some (.stat result stbuf), []⟩)
  | .readdir path => (s, ⟨some (.names (s.fuse.readDirCallback path)), []⟩)
  | .truncate path length => (s, ⟨some (.status (IFuse.truncate path length)), []⟩)
  | .openFile fd inf path =>
      if s.files fd = none then s.openFile fd inf path else (s, ⟨none, []⟩)
  | .notifyPoll provider filename =>
      let (r, fuse) := s.fuse.notifyPoll provider filename
      ({ s with fuse }, ⟨some (.notify r), []⟩)
  | .registerFsProvider provider =>
      ({ s with fuse := s.fuse.registerFsProvider provider }, ⟨none, []⟩)
  | .removeFsProvider id => ({ s with fuse := s.fuse.removeFsProvider id }, ⟨none, []⟩)
  | .setNodes id mCb mSubProviders =>
      ({ s with fuse := s.fuse.setNodes id mCb mSubProviders }, ⟨none, []⟩)
  | e =>
      match s.fileOf e with
      | none => (s, ⟨none, []⟩)
      | some (fd, file) => s.onFile fd file e

/-- The file system as a machine. -/
def machine : Machine FileSystem FsEvent FsOutput := ⟨act⟩

/-- What happens to the handles along a run. -/
def calls (s : FileSystem) (es : List FsEvent) : List (Ownership UInt64) :=
  ((machine.outputs s es).map FsOutput.calls).flatten

/-- The handles of the open files, other than control files. -/
def live (s : FileSystem) : Set UInt64 :=
  {h | ∃ fd file, s.files fd = some file ∧ ¬ IsControl file.path ∧ file.fh = h}

/-- The loop of `release` calls the plugin once, and not at all for a control file. -/
def ReleasedOnce (t : Transition FileSystem FsEvent FsOutput) : Prop :=
  ∀ fd result file, t.event = .release fd result → t.before.files fd = some file →
    t.before.fuse.nodeCalls file.path = if IsControl file.path then 0 else 1

/-- The handles are new when they are given out, and given up at most once, and no plugin is called
with one afterwards. Those that are not given up are the ones of open files. -/
structure HandleCycle (s : FileSystem) (es : List FsEvent) : Prop where
  fresh : (acquired (calls s es)).Nodup
  owns : Owns ∅ (calls s es) (live (machine.run s es))
  once : ∀ h, (calls s es).count (.release h) ≤ 1
  quiet : ∀ h pre post, calls s es = pre ++ .release h :: post → .use h ∉ post
  live_iff : ∀ h, h ∈ live (machine.run s es) ↔
    h ∈ acquired (calls s es) ∧ .release h ∉ calls s es

variable {s : FileSystem}

/-! ### The handles of open files -/

/-- The first `n` numbers have been given out, and open files have different ones. -/
structure Numbered (s : FileSystem) (n : ℕ) : Prop where
  counter : s.fh_counter_g = UInt64.ofNat n
  given : ∀ fd file, s.files fd = some file → ¬ IsControl file.path →
    ∃ k < n, file.fh = UInt64.ofNat k
  distinct : ∀ fd file fd' file', s.files fd = some file → s.files fd' = some file' →
    ¬ IsControl file.path → ¬ IsControl file'.path → file.fh = file'.fh → fd = fd'

lemma numbered_create (fuse : IFuse) : (create fuse).Numbered 0 where
  counter := rfl
  given fd file h := by cases h
  distinct fd file fd' file' h := by cases h

/-- What `openCallback` does with the handles. -/
lemma openCallback_cases (f : IFuse) (inf : PluginInterface) (c : UInt64) (path : Path) :
    (f.openCallback inf c path).1.result = 0 ∧ IsControl path ∧
        (f.openCallback inf c path).1.fh = none ∧ (f.openCallback inf c path).2 = c ∨
      (f.openCallback inf c path).1.result = 0 ∧ ¬ IsControl path ∧
        (f.openCallback inf c path).1.fh = some c ∧ (f.openCallback inf c path).2 = c + 1 ∨
      (f.openCallback inf c path).1.result ≠ 0 ∧
        ((f.openCallback inf c path).2 = c ∨ (f.openCallback inf c path).2 = c + 1) := by
  rw [IFuse.openCallback]
  by_cases hcontrol : path = debugFilePath ∨ path = tsDumpFilePath
  · rw [if_pos hcontrol]
    exact .inl ⟨rfl, hcontrol, rfl, rfl⟩
  rw [if_neg hcontrol]
  cases findProvider f.fsProviders path with
  | none => exact .inr (.inr ⟨by simp [enoent], .inl rfl⟩)
  | some p =>
      dsimp only
      cases p.getNodes.find? fun node => node.name = element path 1 with
      | none => exact .inr (.inr ⟨by simp [enoent], .inl rfl⟩)
      | some node =>
          dsimp only
          split_ifs with hres
          · by_cases hzero : p.openNode inf node.name = 0
            · exact .inr (.inl ⟨hzero, hcontrol, rfl, rfl⟩)
            · exact .inr (.inr ⟨hzero, .inr rfl⟩)
          · exact .inr (.inr ⟨fun hzero => hres hzero.ge, .inl rfl⟩)

/-- A change that leaves the counter and the open files alone. -/
lemma Numbered.of_eq {n : ℕ} (hs : s.Numbered n) {s' : FileSystem}
    (hcounter : s'.fh_counter_g = s.fh_counter_g) (hfiles : s'.files = s.files) :
    s'.Numbered n where
  counter := hcounter.trans hs.counter
  given := by
    rw [hfiles]
    exact hs.given
  distinct := by
    rw [hfiles]
    exact hs.distinct

/-- A file is closed. -/
lemma Numbered.close {n : ℕ} (hs : s.Numbered n) (fd : ℕ) :
    Numbered { s with files := Function.update s.files fd none } n := by
  have hopen : ∀ fd' file, Function.update s.files fd none fd' = some file →
      s.files fd' = some file := by
    intro fd' file h
    by_cases hfd : fd' = fd
    · rw [hfd, Function.update_self] at h
      cases h
    · rwa [Function.update_of_ne hfd] at h
  exact ⟨hs.counter, fun fd' file h => hs.given fd' file (hopen fd' file h),
    fun fd' file fd'' file' h h' => hs.distinct fd' file fd'' file' (hopen _ _ h) (hopen _ _ h')⟩

/-- Another number is given out. -/
lemma Numbered.succ {n : ℕ} (hs : s.Numbered n) :
    Numbered { s with fh_counter_g := s.fh_counter_g + 1 } (n + 1) where
  counter := by
    show s.fh_counter_g + 1 = UInt64.ofNat (n + 1)
    rw [hs.counter, UInt64.ofNat_add]
    rfl
  given fd file h hcontrol :=
    (hs.given fd file h hcontrol).imp fun k hk => ⟨hk.1.trans (Nat.lt_succ_self n), hk.2⟩
  distinct := hs.distinct

/-- The number given out is that of no open file. -/
lemma Numbered.fh_ne {n : ℕ} (hs : s.Numbered n) (hn : n < 2 ^ 64) {fd : ℕ} {file : OpenFile}
    (h : s.files fd = some file) (hcontrol : ¬ IsControl file.path) :
    file.fh ≠ s.fh_counter_g := by
  obtain ⟨k, hk, hfh⟩ := hs.given fd file h hcontrol
  rw [hfh, hs.counter]
  intro heq
  have hnat := congrArg UInt64.toNat heq
  rw [UInt64.toNat_ofNat', UInt64.toNat_ofNat', Nat.mod_eq_of_lt (by omega),
    Nat.mod_eq_of_lt (by omega)] at hnat
  omega

/-- A file is opened at a free place, with a new handle unless it is a control file. -/
lemma Numbered.open {n : ℕ} (hs : s.Numbered n) (hn : n < 2 ^ 64) (fd : ℕ) (path : Path) :
    Numbered { s with
      fh_counter_g := s.fh_counter_g + 1
      files := Function.update s.files fd (some ⟨path, s.fh_counter_g⟩) } (n + 1) where
  counter := hs.succ.counter
  given fd' file h hcontrol := by
    by_cases hfd : fd' = fd
    · rw [hfd] at h
      have heq : some ⟨path, s.fh_counter_g⟩ = some file := by simpa using h
      cases heq
      exact ⟨n, Nat.lt_succ_self n, hs.counter⟩
    · exact hs.succ.given fd' file (by simpa [Function.update_of_ne hfd] using h) hcontrol
  distinct fd' file fd'' file' h h' hcontrol hcontrol' hfh := by
    by_cases hfd : fd' = fd <;> by_cases hfd' : fd'' = fd
    · rw [hfd, hfd']
    · subst hfd
      have heq : some ⟨path, s.fh_counter_g⟩ = some file := by simpa using h
      cases heq
      have hother : s.files fd'' = some file' := by simpa [Function.update_of_ne hfd'] using h'
      exact absurd hfh.symm (hs.fh_ne hn hother hcontrol')
    · subst hfd'
      have heq : some ⟨path, s.fh_counter_g⟩ = some file' := by simpa using h'
      cases heq
      have hother : s.files fd' = some file := by simpa [Function.update_of_ne hfd] using h
      exact absurd hfh (hs.fh_ne hn hother hcontrol)
    · exact hs.distinct fd' file fd'' file' (by simpa [Function.update_of_ne hfd] using h)
        (by simpa [Function.update_of_ne hfd'] using h') hcontrol hcontrol' hfh

/-- A control file is opened. -/
lemma Numbered.openControl {n : ℕ} (hs : s.Numbered n) (fd : ℕ) {path : Path}
    (hcontrol : IsControl path) (fh : UInt64) :
    Numbered { s with files := Function.update s.files fd (some ⟨path, fh⟩) } n := by
  have hopen : ∀ fd' file, Function.update s.files fd (some ⟨path, fh⟩) fd' = some file →
      ¬ IsControl file.path → s.files fd' = some file := by
    intro fd' file h hnot
    by_cases hfd : fd' = fd
    · rw [hfd, Function.update_self] at h
      cases h
      exact absurd hcontrol hnot
    · rwa [Function.update_of_ne hfd] at h
  exact ⟨hs.counter, fun fd' file h hnot => hs.given fd' file (hopen fd' file h hnot) hnot,
    fun fd' file fd'' file' h h' hnot hnot' =>
      hs.distinct fd' file fd'' file' (hopen _ _ h hnot) (hopen _ _ h' hnot') hnot hnot'⟩

/-- **One event** gives out at most one number. -/
lemma Numbered.next {n : ℕ} (hs : s.Numbered n) (hn : n < 2 ^ 64) (e : FsEvent) :
    ∃ k, n ≤ k ∧ k ≤ n + 1 ∧ (machine.next s e).Numbered k := by
  have hsame : ∀ s' : FileSystem, s'.fh_counter_g = s.fh_counter_g → s'.files = s.files →
      ∃ k, n ≤ k ∧ k ≤ n + 1 ∧ s'.Numbered k := fun s' hcounter hfiles =>
    ⟨n, le_rfl, Nat.le_succ n, hs.of_eq hcounter hfiles⟩
  have hfile : ∀ e : FsEvent, ∃ k, n ≤ k ∧ k ≤ n + 1 ∧
      ((match s.fileOf e with
        | none => (s, (⟨none, []⟩ : FsOutput))
        | some (fd, file) => s.onFile fd file e).1).Numbered k := by
    intro e
    cases s.fileOf e with
    | none => exact hsame s rfl rfl
    | some open' =>
        obtain ⟨fd, file⟩ := open'
        cases e with
        | release fd' result => exact ⟨n, le_rfl, Nat.le_succ n, hs.close fd⟩
        | _ => exact hsame _ rfl rfl
  show ∃ k, n ≤ k ∧ k ≤ n + 1 ∧ (s.act e).1.Numbered k
  cases e with
  | openFile fd inf path =>
      simp only [act]
      split_ifs
      · rw [openFile]
        rcases openCallback_cases s.fuse inf s.fh_counter_g path with
          ⟨hresult, hcontrol, hfh, hcounter⟩ | ⟨hresult, -, hfh, hcounter⟩ | ⟨hresult, hcounter⟩
        · simp only [hresult, if_true, hfh, hcounter]
          exact ⟨n, le_rfl, Nat.le_succ n, hs.openControl fd hcontrol _⟩
        · simp only [hresult, if_true, hfh, hcounter]
          exact ⟨n + 1, Nat.le_succ n, le_rfl, hs.open hn fd path⟩
        · simp only [hresult, if_false]
          rcases hcounter with hcounter | hcounter
          · exact hsame _ hcounter rfl
          · exact ⟨n + 1, Nat.le_succ n, le_rfl, hs.succ.of_eq hcounter rfl⟩
      · exact hsame s rfl rfl
  | read | write | poll | release => exact hfile _
  | _ => exact hsame _ rfl rfl

/-- The files that have been opened get by on the numbers up to the number of events. -/
lemma numbered_run (fuse : IFuse) {es : List FsEvent} (hlength : es.length < 2 ^ 64) :
    ∃ k ≤ es.length, (machine.run (create fuse) es).Numbered k := by
  induction es using List.reverseRecOn with
  | nil => exact ⟨0, le_rfl, numbered_create fuse⟩
  | append_singleton es e ih =>
      rw [List.length_append, List.length_singleton] at hlength ⊢
      obtain ⟨k, hk, hnumbered⟩ := ih (by omega)
      obtain ⟨k', -, hk', hnext⟩ := hnumbered.next (by omega) e
      rw [Machine.run_append]
      exact ⟨k', by omega, hnext⟩

/-! ### One event -/

/-- An open file, other than a control file, has a live handle. -/
lemma fh_mem_live {fd : ℕ} {file : OpenFile} (h : s.files fd = some file)
    (hcontrol : ¬ IsControl file.path) : file.fh ∈ live s := ⟨fd, file, h, hcontrol, rfl⟩

/-- A file is opened at a free place. -/
lemma live_open {fd : ℕ} (hfree : s.files fd = none) (file : OpenFile) (c : UInt64) :
    live { s with fh_counter_g := c, files := Function.update s.files fd (some file) }
      = if IsControl file.path then live s else insert file.fh (live s) := by
  ext h
  have hold : ∀ fd' file', s.files fd' = some file' →
      Function.update s.files fd (some file) fd' = some file' := by
    intro fd' file' hfile
    rw [Function.update_of_ne, hfile]
    rintro rfl
    rw [hfree] at hfile
    cases hfile
  have hmem : h ∈ live { s with
      fh_counter_g := c, files := Function.update s.files fd (some file) } ↔
      ¬ IsControl file.path ∧ file.fh = h ∨ h ∈ live s := by
    constructor
    · rintro ⟨fd', file', hfile, hcontrol, rfl⟩
      by_cases hfd : fd' = fd
      · rw [hfd] at hfile
        obtain rfl : file = file' := by simpa using hfile
        exact .inl ⟨hcontrol, rfl⟩
      · exact .inr ⟨fd', file', by simpa [Function.update_of_ne hfd] using hfile, hcontrol, rfl⟩
    · rintro (⟨hcontrol, rfl⟩ | ⟨fd', file', hfile, hcontrol, rfl⟩)
      · exact ⟨fd, file, Function.update_self .., hcontrol, rfl⟩
      · exact ⟨fd', file', hold fd' file' hfile, hcontrol, rfl⟩
  rw [hmem]
  split_ifs with hcontrol
  · simp [hcontrol]
  · rw [Set.mem_insert_iff]
    simp [hcontrol, eq_comm]

/-- A file is closed. -/
lemma Numbered.live_close {n : ℕ} (hs : s.Numbered n) {fd : ℕ} {file : OpenFile}
    (hfile : s.files fd = some file) :
    live { s with files := Function.update s.files fd none }
      = if IsControl file.path then live s else live s \ {file.fh} := by
  ext h
  have hmem : h ∈ live { s with files := Function.update s.files fd none } ↔
      ∃ fd' file', fd' ≠ fd ∧ s.files fd' = some file' ∧ ¬ IsControl file'.path ∧ file'.fh = h := by
    constructor
    · rintro ⟨fd', file', hfile', hcontrol, rfl⟩
      by_cases hfd : fd' = fd
      · rw [hfd] at hfile'
        simp at hfile'
      · exact ⟨fd', file', hfd, by simpa [Function.update_of_ne hfd] using hfile', hcontrol, rfl⟩
    · rintro ⟨fd', file', hfd, hfile', hcontrol, rfl⟩
      exact ⟨fd', file', by simpa [Function.update_of_ne hfd] using hfile', hcontrol, rfl⟩
  rw [hmem]
  split_ifs with hcontrol
  · constructor
    · rintro ⟨fd', file', -, hrest⟩
      exact ⟨fd', file', hrest⟩
    · rintro ⟨fd', file', hfile', hcontrol', rfl⟩
      refine ⟨fd', file', ?_, hfile', hcontrol', rfl⟩
      rintro rfl
      rw [hfile] at hfile'
      cases hfile'
      exact hcontrol' hcontrol
  · constructor
    · rintro ⟨fd', file', hfd, hfile', hcontrol', rfl⟩
      exact ⟨⟨fd', file', hfile', hcontrol', rfl⟩, fun heq =>
        hfd (hs.distinct fd' file' fd file hfile' hfile hcontrol' hcontrol heq)⟩
    · rintro ⟨⟨fd', file', hfile', hcontrol', rfl⟩, hne⟩
      refine ⟨fd', file', ?_, hfile', hcontrol', rfl⟩
      rintro rfl
      rw [hfile] at hfile'
      cases hfile'
      exact hne rfl

/-- **What one event does to the handles**: they go from the live ones to the live ones iff a file
that is closed is released once. -/
theorem Numbered.owns_iff {n : ℕ} (hs : s.Numbered n) (e : FsEvent) :
    Owns (live s) (machine.output s e).calls (live (machine.next s e))
      ↔ ReleasedOnce (machine.transition s e) := by
  have hother : (∀ fd result, e ≠ .release fd result) →
      ReleasedOnce (machine.transition s e) := fun hne fd result _ he => absurd he (hne fd result)
  show Owns (live s) (s.act e).2.calls (live (s.act e).1) ↔ _
  cases e with
  | openFile fd inf path =>
      refine iff_of_true ?_ (hother (by simp))
      simp only [act]
      split_ifs with hfree
      · rw [openFile]
        rcases openCallback_cases s.fuse inf s.fh_counter_g path with
          ⟨hresult, hcontrol, hfh, -⟩ | ⟨hresult, hcontrol, hfh, -⟩ | ⟨hresult, -⟩
        · simp only [hresult, if_true, hfh]
          rw [live_open hfree, if_pos hcontrol]
          exact .nil _
        · simp only [hresult, if_true, hfh]
          rw [live_open hfree, if_neg hcontrol]
          exact .acquire (.nil _)
        · simp only [hresult, if_false]
          exact .nil _
      · exact .nil _
  | read fd ctx size offset result =>
      refine iff_of_true ?_ (hother (by simp))
      simp only [act, fileOf]
      cases hfile : s.files fd with
      | none => exact .nil _
      | some file =>
          simp only [Option.map_some, onFile]
          split_ifs with hcontrol
          · exact .nil _
          · exact .replicate_use (fh_mem_live hfile hcontrol) _
  | release fd result =>
      simp only [act, fileOf]
      cases hfile : s.files fd with
      | none =>
          refine iff_of_true (.nil _) fun fd' result' file he hopen => ?_
          cases he
          rw [show s.files fd = some file from hopen] at hfile
          cases hfile
      | some file =>
          simp only [Option.map_some, onFile]
          have hreleased : ReleasedOnce (machine.transition s (.release fd result)) ↔
              s.fuse.nodeCalls file.path = if IsControl file.path then 0 else 1 := by
            refine ⟨fun h => h fd result file rfl hfile, fun h fd' result' file' he hopen => ?_⟩
            cases he
            rw [show s.files fd = some file' from hopen] at hfile
            cases hfile
            exact h
          rw [hs.live_close hfile, Owns.replicate_release_iff, hreleased]
          by_cases hcontrol : IsControl file.path
          · simp only [hcontrol, if_true, and_true]
            refine ⟨fun h => h.resolve_right fun ⟨_, hmem, heq⟩ => ?_, .inl⟩
            exact (heq ▸ hmem : file.fh ∈ live s \ {file.fh}).2 rfl
          · have hmem := fh_mem_live hfile hcontrol
            simp only [hcontrol, if_false, hmem, and_true]
            refine ⟨fun h => h.resolve_left fun ⟨_, heq⟩ => ?_, .inr⟩
            exact (heq.symm ▸ hmem : file.fh ∈ live s \ {file.fh}).2 rfl
  | write fd buf offset result =>
      refine iff_of_true ?_ (hother (by simp))
      simp only [act, fileOf]
      cases s.files fd <;> exact .nil _
  | poll fd ctx ph =>
      refine iff_of_true ?_ (hother (by simp))
      simp only [act, fileOf]
      cases s.files fd <;> exact .nil _
  | _ => exact iff_of_true (.nil _) (hother (by simp))

/-! ### All runs -/

lemma calls_append (s : FileSystem) (es : List FsEvent) (e : FsEvent) :
    calls s (es ++ [e]) = calls s es ++ (machine.output (machine.run s es) e).calls := by
  rw [calls, calls, Machine.outputs_append, List.map_append, List.flatten_append]
  exact congrArg _ (List.append_nil _)

/-- A handle is received as the counter moves on. -/
lemma acquired_output (s : FileSystem) (e : FsEvent) :
    acquired (machine.output s e).calls = [] ∧ ((machine.next s e).fh_counter_g = s.fh_counter_g ∨
        (machine.next s e).fh_counter_g = s.fh_counter_g + 1) ∨
      acquired (machine.output s e).calls = [s.fh_counter_g] ∧
        (machine.next s e).fh_counter_g = s.fh_counter_g + 1 := by
  show acquired (s.act e).2.calls = [] ∧ ((s.act e).1.fh_counter_g = _ ∨
    (s.act e).1.fh_counter_g = _) ∨ acquired (s.act e).2.calls = _ ∧ (s.act e).1.fh_counter_g = _
  cases e with
  | openFile fd inf path =>
      simp only [act]
      split_ifs
      · rw [openFile]
        rcases openCallback_cases s.fuse inf s.fh_counter_g path with
          ⟨hresult, -, hfh, hcounter⟩ | ⟨hresult, -, hfh, hcounter⟩ | ⟨hresult, hcounter⟩
        · simp only [hresult, if_true, hfh, hcounter]
          exact .inl ⟨rfl, .inl trivial⟩
        · simp only [hresult, if_true, hfh, hcounter]
          exact .inr ⟨rfl, trivial⟩
        · simp only [hresult, if_false]
          exact .inl ⟨rfl, hcounter⟩
      · exact .inl ⟨rfl, .inl rfl⟩
  | read fd ctx size offset result =>
      refine .inl ?_
      simp only [act, fileOf]
      cases s.files fd with
      | none => exact ⟨rfl, .inl rfl⟩
      | some file =>
          simp only [Option.map_some, onFile]
          split_ifs
          · exact ⟨rfl, .inl trivial⟩
          · exact ⟨acquired_replicate_use _, .inl trivial⟩
  | release fd result =>
      refine .inl ?_
      simp only [act, fileOf]
      cases s.files fd with
      | none => exact ⟨rfl, .inl rfl⟩
      | some file => exact ⟨acquired_replicate_release _, .inl rfl⟩
  | write fd buf offset result =>
      simp only [act, fileOf]
      cases s.files fd <;> exact .inl ⟨rfl, .inl rfl⟩
  | poll fd ctx ph =>
      simp only [act, fileOf]
      cases s.files fd <;> exact .inl ⟨rfl, .inl rfl⟩
  | _ => exact .inl ⟨rfl, .inl rfl⟩

/-- No handle is given out twice. -/
lemma acquired_calls (fuse : IFuse) {es : List FsEvent} (hlength : es.length < 2 ^ 64) :
    ∃ k ≤ es.length, (machine.run (create fuse) es).fh_counter_g = UInt64.ofNat k ∧
      (acquired (calls (create fuse) es)).Nodup ∧
      ∀ h ∈ acquired (calls (create fuse) es), ∃ j < k, h = UInt64.ofNat j := by
  induction es using List.reverseRecOn with
  | nil => exact ⟨0, le_rfl, rfl, List.nodup_nil, by simp [calls, Machine.outputs]⟩
  | append_singleton es e ih =>
      rw [List.length_append, List.length_singleton] at hlength ⊢
      obtain ⟨k, hk, hcounter, hnodup, hbelow⟩ := ih (by omega)
      have hsucc : UInt64.ofNat k + 1 = UInt64.ofNat (k + 1) := by
        rw [UInt64.ofNat_add]
        rfl
      have hlater : ∀ h ∈ acquired (calls (create fuse) es), ∃ j < k + 1, h = UInt64.ofNat j :=
        fun h hh => (hbelow h hh).imp fun j hj => ⟨hj.1.trans (Nat.lt_succ_self k), hj.2⟩
      rw [calls_append, acquired_append, Machine.run_append, Machine.run_singleton]
      rcases acquired_output (machine.run (create fuse) es) e with
        ⟨hnone, hsame | hnext⟩ | ⟨hgiven, hnext⟩
      · rw [hnone, List.append_nil, hsame]
        exact ⟨k, by omega, hcounter, hnodup, hbelow⟩
      · rw [hnone, List.append_nil, hnext, hcounter, hsucc]
        exact ⟨k + 1, by omega, rfl, hnodup, hlater⟩
      · rw [hgiven, hnext, hcounter, hsucc]
        refine ⟨k + 1, by omega, rfl, ?_, fun h hh => ?_⟩
        · -- the counter has passed all that was given out
          refine List.nodup_append'.mpr ⟨hnodup, List.nodup_singleton _, fun h hh hk' => ?_⟩
          obtain ⟨j, hj, rfl⟩ := hbelow h hh
          have hnat := congrArg UInt64.toNat (List.mem_singleton.mp hk')
          rw [UInt64.toNat_ofNat', UInt64.toNat_ofNat', Nat.mod_eq_of_lt (by omega),
            Nat.mod_eq_of_lt (by omega)] at hnat
          omega
        · rcases List.mem_append.mp hh with hh | hh
          · exact hlater h hh
          · exact ⟨k, Nat.lt_succ_self k, List.mem_singleton.mp hh⟩

/-- Where every file is released once, the handles are owned along the run. -/
lemma owns_calls (fuse : IFuse) {es : List FsEvent} (hlength : es.length < 2 ^ 64)
    (hes : ∀ t ∈ machine.trace (create fuse) es, ReleasedOnce t) :
    Owns ∅ (calls (create fuse) es) (live (machine.run (create fuse) es)) := by
  induction es using List.reverseRecOn with
  | nil =>
      have hempty : live (create fuse) = ∅ := by
        ext h
        simp [live, create]
      show Owns ∅ [] (live (create fuse))
      rw [hempty]
      exact .nil _
  | append_singleton es e ih =>
      rw [List.length_append, List.length_singleton] at hlength
      have hbelow : es.length < 2 ^ 64 := by omega
      obtain ⟨k, hk, hnumbered⟩ := numbered_run fuse hbelow
      have hbefore := ih hbelow fun t ht => hes t (by
        rw [Machine.trace_append]
        exact List.mem_append_left _ ht)
      have hlast := (hnumbered.owns_iff e).mpr (hes _ (machine.mem_trace_append _ es e))
      rw [calls_append, Machine.run_append]
      exact hbefore.append hlast

/-- **Each handle is released once.** Up to `2 ^ 64` events of any clients and plugins in any order,
the plugins are called with every handle from its open to its one release, and not afterwards, iff
the loop of `release` finds each file once when it is closed. -/
theorem handles_released_iff (fuse : IFuse) (es : List FsEvent) (hlength : es.length < 2 ^ 64) :
    (∀ fs, fs <+: es → HandleCycle (create fuse) fs)
      ↔ ∀ t ∈ machine.trace (create fuse) es, ReleasedOnce t := by
  constructor
  · intro h t ht
    obtain ⟨pre, e, post, rfl, rfl⟩ := machine.exists_of_mem_trace ht
    rw [List.length_append, List.length_cons] at hlength
    have hbelow : pre.length < 2 ^ 64 := by omega
    obtain ⟨k, hk, hnumbered⟩ := numbered_run fuse hbelow
    have hpre := (h pre ⟨e :: post, rfl⟩).owns
    have hnext := (h (pre ++ [e]) ⟨post, by simp⟩).owns
    rw [calls_append, Machine.run_append] at hnext
    obtain ⟨mid, hmid, hlast⟩ := hnext.exists_of_append
    obtain rfl := hpre.unique hmid
    exact (hnumbered.owns_iff e).mp hlast
  · rintro h fs ⟨gs, rfl⟩
    rw [List.length_append] at hlength
    have hbelow : fs.length < 2 ^ 64 := by omega
    have howns := owns_calls fuse hbelow fun t ht => h t (by
      rw [Machine.trace_append]
      exact List.mem_append_left _ ht)
    obtain ⟨-, -, -, hnodup, -⟩ := acquired_calls fuse hbelow
    have hfresh : Fresh ∅ (calls (create fuse) fs) := ⟨hnodup, fun _ _ => Set.notMem_empty _⟩
    exact {
      fresh := hnodup
      owns := howns
      once := howns.count_release_le hfresh
      quiet := by
        intro r pre post heq
        rw [heq] at howns hfresh
        exact (howns.not_mem_of_release hfresh).2.1
      live_iff := fun r => by
        rw [howns.mem_iff hfresh]
        simp }

/-- A stream is read and closed, and opened again. -/
theorem handles_released_stream :
    (∀ fs, fs <+: [.registerFsProvider ⟨"sample", some ["a.ts"], []⟩,
        .openFile 3 ⟨fun _ => 0, fun _ => 0⟩ ["sample", "a.ts"], .read 3 none 10 0 10,
        .release 3 0, .openFile 3 ⟨fun _ => 0, fun _ => 0⟩ ["sample", "a.ts"]] →
      HandleCycle (create ⟨∅, ⟨0, false⟩, ∅, ∅⟩) fs) ∧
    calls (create ⟨∅, ⟨0, false⟩, ∅, ∅⟩) [.registerFsProvider ⟨"sample", some ["a.ts"], []⟩,
        .openFile 3 ⟨fun _ => 0, fun _ => 0⟩ ["sample", "a.ts"], .read 3 none 10 0 10,
        .release 3 0, .openFile 3 ⟨fun _ => 0, fun _ => 0⟩ ["sample", "a.ts"]]
      = [.acquire 0, .use 0, .release 0, .acquire 1] := by
  refine ⟨(handles_released_iff _ _ (by decide)).mpr fun t ht fd result file he hfile => ?_,
    by decide +kernel⟩
  simp only [Machine.trace, List.mem_cons, List.not_mem_nil, or_false] at ht
  rcases ht with rfl | rfl | rfl | rfl | rfl
  · cases he
  · cases he
  · cases he
  · cases he
    obtain rfl : (⟨["sample", "a.ts"], 0⟩ : OpenFile) = file :=
      Option.some.inj ((show _ = _ by decide +kernel).symm.trans hfile)
    decide +kernel
  · cases he

end FileSystem

end StreamFs
