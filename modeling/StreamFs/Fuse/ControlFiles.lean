import StreamFs.Fuse.Namespace

/-!
Reading the control files `/debug` and `/ts_dump` (`readCallback`, `getAttrCallback` and `intToHex`
of `IFuse.cpp`).

* `ControlFile`: the two files, each with its name, the size of its option, and its text.
* `ReadAgrees`: a read writes no more than it is asked for, returns what it writes, and returns the
  size that `getAttrCallback` gives where it is asked for that much.
* `ReadFits`: the size is on the same side of the size of the option and of the length of the text,
  and no provider has the name of the file.
* `readAgrees_iff`: a read agrees iff it fits.
-/

namespace StreamFs

/-- The control files. -/
inductive ControlFile where
  | debug | tsDump
  deriving DecidableEq

namespace ControlFile

/-- The name under the root. -/
def name : ControlFile → String
  | debug => "debug"
  | tsDump => "ts_dump"

/-- `DEBUG_FILE_PATH` and `TS_DUMP_FILE_PATH`. -/
def path : ControlFile → Path
  | debug => debugFilePath
  | tsDump => tsDumpFilePath

/-- The size of the option in bytes. -/
def width : ControlFile → ℕ
  | debug => 4
  | tsDump => 1

/-- The text of the option. -/
def text (c : ControlFile) (options : DebugOptions) : String :=
  match c with
  | debug => intToHex options.debugLevel
  | tsDump => tsDumpText options.tsDumpEnable

lemma name_ne (c : ControlFile) : c.name ≠ "" := by cases c <;> decide

/-- The text is not empty. -/
lemma length_text_pos (c : ControlFile) (options : DebugOptions) :
    0 < (c.text options).length := by
  cases c with
  | debug =>
      rw [text, intToHex, String.length_append]
      exact Nat.add_pos_left (by decide) _
  | tsDump =>
      rw [text, tsDumpText]
      split <;> decide

end ControlFile

namespace IFuse

variable (f : IFuse) (c : ControlFile) (inf : PluginInterface) (size : ℕ) (offset : ℤ)

/-- What is read from a control file, in at most `size` bytes, and as the attributes say. -/
structure ReadAgrees (reply : ReadReply) : Prop where
  bounded : ∀ text ∈ reply.text, text.length ≤ size
  counted : reply.result = ((reply.text.map String.length).getD 0 : ℕ)
  measured : offset = 0 → (f.getAttrCallback inf c.path).2.st_size ≤ size →
    reply.result = (f.getAttrCallback inf c.path).2.st_size ∧
      ∀ text ∈ reply.text, text = c.text f.mDebugOptions

/-- The read is not at the start, or of a size below the option and the text, or of a size of both.
A provider of the name of the file changes its attributes. -/
def ReadFits : Prop :=
  0 < offset ∨
    size < c.width ∧
      (offset = 0 → c.name ∈ f.fsProviders ∨ size < (c.text f.mDebugOptions).length) ∨
    c.width ≤ size ∧ (c.text f.mDebugOptions).length ≤ size ∧
      (offset = 0 → c.name ∉ f.fsProviders)

/-- The size in the attributes of a control file. -/
lemma st_size_getAttrCallback :
    (f.getAttrCallback inf c.path).2.st_size
      = if c.name ∈ f.fsProviders then 0 else (c.text f.mDebugOptions).length := by
  have hroot : c.path ≠ [] := by cases c <;> decide
  have hname : element c.path 0 = c.name := by cases c <;> rfl
  have hlength : c.path.length ≤ 1 := by cases c <;> decide
  rw [getAttrCallback, if_neg hroot, hname]
  by_cases hmounted : c.name ∈ f.fsProviders
  · rw [if_pos ⟨c.name_ne, AList.lookup_isSome.mpr hmounted, hlength⟩, if_pos hmounted]
    rfl
  · rw [if_neg (fun h => hmounted (AList.lookup_isSome.mp h.2.1)), if_neg hmounted]
    cases c <;> rfl

/-- A control file is read by its text. -/
lemma readCallback_control (ctx : Option FuseContext) (read : ℤ) :
    (f.readCallback ctx c.path size offset read).1
      = controlRead (c.text f.mDebugOptions) c.width size offset := by
  cases c <;> rfl

/-- **A read of a control file agrees** with the size it is asked for and with the attributes iff it
fits. -/
theorem readAgrees_iff (ctx : Option FuseContext) (read : ℤ) :
    f.ReadAgrees c inf size offset (f.readCallback ctx c.path size offset read).1
      ↔ f.ReadFits c size offset := by
  have hpos := c.length_text_pos f.mDebugOptions
  have hattr := f.st_size_getAttrCallback c inf
  rw [readCallback_control, controlRead, ReadFits]
  by_cases hoffset : 0 < offset
  · -- nothing is read behind the start
    rw [if_pos (Or.inl hoffset)]
    refine iff_of_true ⟨nofun, rfl, fun h => absurd h hoffset.ne'⟩ (Or.inl hoffset)
  by_cases hsize : size < c.width
  · -- nothing is read in less than the option takes
    rw [if_pos (Or.inr hsize)]
    have hside : ¬ c.width ≤ size := Nat.not_le.mpr hsize
    simp only [hoffset, hsize, hside, false_or, true_and, false_and, or_false]
    constructor
    · intro h hzero
      by_contra hnot
      push Not at hnot
      rw [if_neg hnot.1] at hattr
      have hresult : (0 : ℤ) = _ := (h.measured hzero (hattr ▸ hnot.2)).1
      rw [hattr] at hresult
      exact hpos.ne (by exact_mod_cast hresult)
    · intro h
      refine ⟨nofun, rfl, fun hzero hle => ⟨?_, nofun⟩⟩
      rcases h hzero with hmounted | hshort
      · rw [hattr, if_pos hmounted]
        rfl
      · by_cases hmounted : c.name ∈ f.fsProviders
        · rw [hattr, if_pos hmounted]
          rfl
        · rw [hattr, if_neg hmounted] at hle
          exact absurd hle (Nat.not_le.mpr hshort)
  · -- the whole text is written
    rw [if_neg (not_or.mpr ⟨hoffset, hsize⟩)]
    have hside : c.width ≤ size := Nat.not_lt.mp hsize
    simp only [hoffset, hsize, hside, false_or, true_and, false_and]
    constructor
    · intro h
      have hle : (c.text f.mDebugOptions).length ≤ size := h.bounded _ rfl
      refine ⟨hle, fun hzero hmounted => ?_⟩
      rw [if_pos hmounted] at hattr
      have hresult : ((c.text f.mDebugOptions).length : ℤ) = _ :=
        (h.measured hzero (hattr ▸ Nat.zero_le size)).1
      rw [hattr] at hresult
      exact hpos.ne' (by exact_mod_cast hresult)
    · rintro ⟨hle, hfree⟩
      refine ⟨fun text htext => ?_, rfl, fun hzero _ => ⟨?_, fun text htext => ?_⟩⟩
      · obtain rfl := Option.mem_some_iff.mp htext
        exact hle
      · rw [hattr, if_neg (hfree hzero)]
      · exact (Option.mem_some_iff.mp htext).symm

/-- A level of eight digits is read in four bytes. -/
theorem not_forall_readAgrees : ¬ ∀ (f : IFuse) (c : ControlFile) (inf : PluginInterface) (size : ℕ)
    (offset : ℤ) (ctx : Option FuseContext) (read : ℤ),
      f.ReadAgrees c inf size offset (f.readCallback ctx c.path size offset read).1 := by
  intro h
  have hwritten := (h ⟨∅, ⟨0xffffffff, false⟩, ∅, ∅⟩ .debug ⟨fun _ => 0, fun _ => 0⟩ 4 0 none
    0).bounded (intToHex 0xffffffff) rfl
  exact absurd hwritten (by decide +kernel)

end IFuse

end StreamFs
