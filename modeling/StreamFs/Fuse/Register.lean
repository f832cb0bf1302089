import StreamFs.Base.Component
import StreamFs.Fuse.FileSystem

/-!
The control files as registers.

* `ControlFile.Value`, `value`, `set`: the option behind a control file.
* `RegisterEvent`, `ControlFile.register`: the abstract file. A write stores the value that it is
  parsed as, and a read gives the text of the value.
* `FileSystem.route`, `FileSystem.component`: each control file is a component of the file system.
* `FileSystem.control_register`: along every run, what is read from a control file is what the
  register gives after the writes of that file alone, and the text of a value is written back as
  the value.
-/

namespace StreamFs

open Numeral

namespace ControlFile

/-- The type of the option. -/
abbrev Value : ControlFile → Type
  | debug => UInt32
  | tsDump => Bool

/-- The option. -/
def value (c : ControlFile) (options : DebugOptions) : c.Value :=
  match c with
  | debug => options.debugLevel
  | tsDump => options.tsDumpEnable

/-- The option is set. -/
def set (c : ControlFile) (v : c.Value) (options : DebugOptions) : DebugOptions :=
  match c with
  | debug => { options with debugLevel := v }
  | tsDump => { options with tsDumpEnable := v }

/-- The text of an option. -/
def valueText (c : ControlFile) (v : c.Value) : String :=
  match c with
  | debug => intToHex v
  | tsDump => tsDumpText v

/-- The option that a text is parsed as, none where it is refused. -/
def parse (c : ControlFile) (buf : List UInt8) : Option c.Value :=
  match c with
  | debug => (stoul 16 buf).map UInt32.ofNat
  | tsDump => (stoi 10 buf).map fun enable => decide (enable ≠ 0)

end ControlFile

/-- A register is written or read. -/
inductive RegisterEvent where
  | write (buf : List UInt8) (offset : ℤ)
  | read (size : ℕ) (offset : ℤ)

namespace ControlFile

/-- The register of a control file. -/
def register (c : ControlFile) : Machine c.Value RegisterEvent FsReply where
  step v
    | .write buf offset =>
        if offset = 0 then
          match c.parse buf with
          | none => (v, .status 0)
          | some v' => (v', .status (toInt32 buf.length))
        else (v, .status 0)
    | .read size offset => (v, .read (IFuse.controlRead (c.valueText v) c.width size offset))

variable (c : ControlFile)

@[simp] lemma value_set (v : c.Value) (options : DebugOptions) : c.value (c.set v options) = v := by
  cases c <;> rfl

/-- The control files have options of their own. -/
lemma value_set_of_ne {c c' : ControlFile} (h : c ≠ c') (v : c'.Value) (options : DebugOptions) :
    c.value (c'.set v options) = c.value options := by
  cases c <;> cases c' <;> first | exact absurd rfl h | rfl

lemma text_eq (options : DebugOptions) : c.text options = c.valueText (c.value options) := by
  cases c <;> rfl

/-- The text of a value is parsed as the value. -/
lemma parse_text (v : c.Value) : c.parse (bytes (c.valueText v).toList) = some v := by
  cases c with
  | debug =>
      have hparsed : stoul 16 (bytes (intToHex v).toList) = some (UInt32.toNat v) :=
        IFuse.stoul_intToHex v
      show (stoul 16 (bytes (intToHex v).toList)).map UInt32.ofNat = some v
      rw [hparsed]
      exact congrArg some UInt32.ofNat_toNat
  | tsDump =>
      have hparsed : ∀ enable : Bool,
          (stoi 10 (bytes (tsDumpText enable).toList)).map (fun n => decide (n ≠ 0))
            = some enable := by decide +kernel
      exact hparsed v

end ControlFile

lemma IsControl.exists_path {path : Path} (h : IsControl path) :
    ∃ c : ControlFile, path = c.path :=
  h.elim (fun h => ⟨.debug, h⟩) fun h => ⟨.tsDump, h⟩

namespace IFuse

/-- A control file is written as its register. -/
lemma writeFileCallback_control (f : IFuse) (c : ControlFile) (buf : List UInt8)
    (offset write : ℤ) :
    f.writeFileCallback c.path buf offset write
      = if offset = 0 then
          match c.parse buf with
          | none => (0, f)
          | some v =>
              (toInt32 buf.length, { f with mDebugOptions := c.set v f.mDebugOptions })
        else (0, f) := by
  cases c with
  | debug =>
      show f.writeFileCallback debugFilePath buf offset write = _
      rw [writeFileCallback, if_pos rfl]
      split_ifs
      · rw [ControlFile.parse]
        cases stoul 16 buf <;> rfl
      · rfl
  | tsDump =>
      show f.writeFileCallback tsDumpFilePath buf offset write = _
      rw [writeFileCallback, if_neg (by decide), if_pos rfl]
      split_ifs
      · rw [ControlFile.parse]
        cases stoi 10 buf <;> rfl
      · rfl

/-- A write to no control file leaves the options alone. -/
lemma mDebugOptions_writeFileCallback (f : IFuse) {path : Path} (h : ¬ IsControl path)
    (buf : List UInt8) (offset write : ℤ) :
    (f.writeFileCallback path buf offset write).2.mDebugOptions = f.mDebugOptions := by
  rw [writeFileCallback, if_neg fun hpath => h (.inl hpath), if_neg fun hpath => h (.inr hpath)]
  split_ifs <;> rfl

lemma mDebugOptions_readCallback (f : IFuse) (ctx : Option FuseContext) (path : Path) (size : ℕ)
    (offset read : ℤ) :
    (f.readCallback ctx path size offset read).2.mDebugOptions = f.mDebugOptions := by
  rw [readCallback]
  split_ifs
  · rfl
  · rfl
  · cases ctx <;> rfl

lemma mDebugOptions_poll (f : IFuse) (ctx : Option FuseContext) (path : Path)
    (ph : Option PollHandle) : (f.poll ctx path ph).2.mDebugOptions = f.mDebugOptions := by
  rw [poll]
  cases findProvider f.fsProviders path with
  | none => rfl
  | some p =>
      dsimp only
      split_ifs
      · rfl
      · cases ctx <;> cases ph <;> rfl

lemma mDebugOptions_notifyPoll (f : IFuse) (provider filename : String) :
    (f.notifyPoll provider filename).2.mDebugOptions = f.mDebugOptions := by
  rw [notifyPoll]
  cases f.mPollHandles.lookup (provider, filename) <;> rfl

lemma mDebugOptions_setNodes (f : IFuse) (id : String) (mCb : Option (List String))
    (mSubProviders : List String) :
    (f.setNodes id mCb mSubProviders).mDebugOptions = f.mDebugOptions := by
  rw [setNodes]
  cases f.fsProviders.lookup id <;> rfl

lemma mDebugOptions_registerFsProvider (f : IFuse) (provider : VirtualFSProvider) :
    (f.registerFsProvider provider).mDebugOptions = f.mDebugOptions := by
  rw [registerFsProvider]
  split_ifs <;> rfl

end IFuse

namespace FileSystem

/-- A call on an open file with the path of the control file goes to the register. -/
def route (c : ControlFile) (s : FileSystem) : FsEvent → Option RegisterEvent
  | .write fd buf offset _ =>
      if (s.files fd).map OpenFile.path = some c.path then some (.write buf offset) else none
  | .read fd _ size offset _ =>
      if (s.files fd).map OpenFile.path = some c.path then some (.read size offset) else none
  | _ => none

variable {s : FileSystem} (c : ControlFile)

/-- An open file is written. -/
lemma act_write {fd : ℕ} {file : OpenFile} (hfile : s.files fd = some file) (buf : List UInt8)
    (offset result : ℤ) :
    s.act (.write fd buf offset result)
      = ({ s with fuse := (s.fuse.writeFileCallback file.path buf offset result).2 },
        ⟨some (.status (s.fuse.writeFileCallback file.path buf offset result).1), []⟩) := by
  simp only [act, fileOf, hfile, Option.map_some, onFile]

/-- An open file is read. -/
lemma act_read {fd : ℕ} {file : OpenFile} (hfile : s.files fd = some file)
    (ctx : Option FuseContext) (size : ℕ) (offset result : ℤ) :
    s.act (.read fd ctx size offset result)
      = ({ s with fuse := (s.fuse.readCallback ctx file.path size offset result).2 },
        ⟨some (.read (s.fuse.readCallback ctx file.path size offset result).1),
          if IsControl file.path then []
          else List.replicate (s.fuse.nodeCalls file.path) (.use file.fh)⟩) := by
  simp only [act, fileOf, hfile, Option.map_some, onFile]

/-- A file that is not open is neither written nor read. -/
lemma act_closed {fd : ℕ} (hfile : s.files fd = none) {e : FsEvent}
    (he : (∃ buf offset result, e = .write fd buf offset result) ∨
      ∃ ctx size offset result, e = .read fd ctx size offset result) :
    s.act e = (s, ⟨none, []⟩) := by
  rcases he with ⟨buf, offset, result, rfl⟩ | ⟨ctx, size, offset, result, rfl⟩ <;>
    simp only [act, fileOf, hfile, Option.map_none]

/-- One event reaches the register of a control file where it is routed to it, and leaves it alone
otherwise. -/
lemma component :
    machine.Component c.register (fun s => c.value s.fuse.mDebugOptions) (route c) where
  next_of_some s e e' hroute := by
    show c.value (s.act e).1.fuse.mDebugOptions = _
    cases e with
    | write fd buf offset result =>
        simp only [route] at hroute
        split_ifs at hroute with hpath
        cases hroute
        obtain ⟨file, hfile, hpath⟩ := Option.map_eq_some_iff.mp hpath
        rw [act_write hfile, hpath, IFuse.writeFileCallback_control]
        simp only [Machine.next, ControlFile.register]
        split_ifs
        · cases c.parse buf with
          | none => rfl
          | some v => exact c.value_set v _
        · rfl
    | read fd ctx size offset result =>
        simp only [route] at hroute
        split_ifs at hroute with hpath
        cases hroute
        obtain ⟨file, hfile, -⟩ := Option.map_eq_some_iff.mp hpath
        rw [act_read hfile, IFuse.mDebugOptions_readCallback]
        rfl
    | _ => cases hroute
  next_of_none s e hroute := by
    show c.value (s.act e).1.fuse.mDebugOptions = _
    cases e with
    | write fd buf offset result =>
        simp only [route] at hroute
        split_ifs at hroute with hpath
        cases hfile : s.files fd with
        | none => rw [act_closed hfile (.inl ⟨buf, offset, result, rfl⟩)]
        | some file =>
            rw [hfile, Option.map_some, Option.some_inj] at hpath
            rw [act_write hfile]
            by_cases hcontrol : IsControl file.path
            · -- the other control file
              obtain ⟨c', hc'⟩ := hcontrol.exists_path
              have hne : c ≠ c' := fun heq => hpath (heq ▸ hc')
              rw [hc', IFuse.writeFileCallback_control]
              split_ifs
              · cases c'.parse buf with
                | none => rfl
                | some v => exact ControlFile.value_set_of_ne hne v _
              · rfl
            · rw [IFuse.mDebugOptions_writeFileCallback _ hcontrol]
    | read fd ctx size offset result =>
        cases hfile : s.files fd with
        | none => rw [act_closed hfile (.inr ⟨ctx, size, offset, result, rfl⟩)]
        | some file => rw [act_read hfile, IFuse.mDebugOptions_readCallback]
    | openFile fd inf path =>
        simp only [act]
        split_ifs
        · rw [openFile]
          dsimp only
          split_ifs <;> rfl
        · rfl
    | poll fd ctx ph =>
        simp only [act, fileOf]
        cases s.files fd with
        | none => rfl
        | some file => exact congrArg c.value (IFuse.mDebugOptions_poll ..)
    | release fd result =>
        simp only [act, fileOf]
        cases s.files fd <;> rfl
    | notifyPoll provider filename =>
        exact congrArg c.value (IFuse.mDebugOptions_notifyPoll ..)
    | registerFsProvider provider =>
        exact congrArg c.value (IFuse.mDebugOptions_registerFsProvider ..)
    | setNodes id mCb mSubProviders => exact congrArg c.value (IFuse.mDebugOptions_setNodes ..)
    | _ => rfl

/-- What is given back for a call on a control file is what the register gives. -/
lemma reply_of_route {e : FsEvent} {e' : RegisterEvent} (hroute : route c s e = some e') :
    (machine.output s e).reply = some (c.register.output (c.value s.fuse.mDebugOptions) e') := by
  show (s.act e).2.reply = _
  cases e with
  | write fd buf offset result =>
      simp only [route] at hroute
      split_ifs at hroute with hpath
      cases hroute
      obtain ⟨file, hfile, hpath⟩ := Option.map_eq_some_iff.mp hpath
      rw [act_write hfile, hpath, IFuse.writeFileCallback_control]
      simp only [Machine.output, ControlFile.register]
      split_ifs
      · cases c.parse buf with
        | none => rfl
        | some v => dsimp only
      · rfl
  | read fd ctx size offset result =>
      simp only [route] at hroute
      split_ifs at hroute with hpath
      cases hroute
      obtain ⟨file, hfile, hpath⟩ := Option.map_eq_some_iff.mp hpath
      rw [act_read hfile, hpath, IFuse.readCallback_control, ControlFile.text_eq]
      rfl
  | _ => cases hroute

/-- **A control file is a register.** In every run of any clients and plugins, the calls on a
control file are answered as those of a register that these calls alone are made on, which is left
with the value of the option; and the text that is read, written back, stores the value it was read
from. -/
theorem control_register (s : FileSystem) (es : List FsEvent) (c : ControlFile) :
    c.value (machine.run s es).fuse.mDebugOptions
        = c.register.run (c.value s.fuse.mDebugOptions) (machine.routed (route c) s es) ∧
      (∀ t ∈ machine.trace s es, ∀ e', route c t.before t.event = some e' →
        ∃ r ∈ c.register.trace (c.value s.fuse.mDebugOptions) (machine.routed (route c) s es),
          r.event = e' ∧ t.output.reply = some r.output) ∧
      ∀ v v' : c.Value,
        c.register.next v' (.write (bytes (c.valueText v).toList) 0) = v := by
  refine ⟨(component c).view_run s es, fun t ht e' hroute => ?_, fun v v' => ?_⟩
  · obtain ⟨pre, e, post, rfl, rfl⟩ := machine.exists_of_mem_trace ht
    exact ⟨_, (component c).transition_mem_trace ht hroute, rfl, reply_of_route c hroute⟩
  · simp only [Machine.next, ControlFile.register, if_true]
    rw [c.parse_text]

end FileSystem

end StreamFs
