import StreamFs.Base.Numeral
import StreamFs.Fuse.Poll

/-!
Writing the control files (`writeFileCallback` of `IFuse.cpp`).

* `writeFileCallback`: the callback, on the bytes of the buffer. What the provider's `write` returns
  is an argument.
* `TakesEffect`: a write to `/debug` sets the level to the number that is parsed and returns the
  size of the buffer, or returns `0` and leaves the level alone.
* `LevelFits`: the number that is parsed is one of 32 bits, and the size one that an `int` holds.
* `takesEffect_iff`: a write takes effect or not at all iff the level fits, and the text that is
  read of a level is written back as that level.
-/

namespace StreamFs

namespace IFuse

open Numeral

/-- `writeFileCallback`. The size of the buffer is returned as an `int`. -/
def writeFileCallback (f : IFuse) (path : Path) (buf : List UInt8) (offset : ℤ) (write : ℤ) :
    ℤ × IFuse :=
  if path = debugFilePath then
    if offset = 0 then
      match stoul 16 buf with
      | none => (0, f)
      | some level =>
          (toInt32 buf.length, { f with
            mDebugOptions := { f.mDebugOptions with debugLevel := UInt32.ofNat level } })
    else (0, f)
  else if path = tsDumpFilePath then
    if offset = 0 then
      match stoi 10 buf with
      | none => (0, f)
      | some enable =>
          (toInt32 buf.length, { f with
            mDebugOptions := { f.mDebugOptions with tsDumpEnable := enable ≠ 0 } })
    else (0, f)
  else if findNode (findProvider f.fsProviders path) path = "" then (toInt32 buf.length, f)
  else (write, f)

/-- The level is the number that is parsed, and the size of the buffer is returned, or nothing is
changed and `0` is returned. -/
def TakesEffect (f : IFuse) (buf : List UInt8) (reply : ℤ × IFuse) : Prop :=
  (∃ level, stoul 16 buf = some level ∧ reply.1 = buf.length ∧
      reply.2.mDebugOptions.debugLevel.toNat = level) ∨
    reply.1 = 0 ∧ reply.2.mDebugOptions.debugLevel = f.mDebugOptions.debugLevel

/-- If a number is parsed, it is one of 32 bits, in a buffer of a size that an `int` holds. Or the
`int` is `0`, and the 32 bits are the level as it is. -/
def LevelFits (f : IFuse) (buf : List UInt8) : Prop :=
  ∀ level, stoul 16 buf = some level →
    level < 2 ^ 32 ∧ buf.length < 2 ^ 31 ∨
      toInt32 buf.length = 0 ∧ level % 2 ^ 32 = f.mDebugOptions.debugLevel.toNat

variable (f : IFuse)

/-- A write to `/debug` that is parsed. -/
lemma writeFileCallback_debug {buf : List UInt8} {level : ℕ} (h : stoul 16 buf = some level)
    (write : ℤ) :
    f.writeFileCallback debugFilePath buf 0 write
      = (toInt32 buf.length, { f with
        mDebugOptions := { f.mDebugOptions with debugLevel := UInt32.ofNat level } }) := by
  rw [writeFileCallback, if_pos rfl, if_pos rfl]
  simp only [h]

/-- A write to `/debug` that is not. -/
lemma writeFileCallback_debug_none {buf : List UInt8} (h : stoul 16 buf = none) (write : ℤ) :
    f.writeFileCallback debugFilePath buf 0 write = (0, f) := by
  rw [writeFileCallback, if_pos rfl, if_pos rfl]
  simp only [h]

/-- The text of a level is parsed as the level. -/
lemma stoul_intToHex (level : UInt32) : stoul 16 (bytes (intToHex level).toList)
    = some level.toNat := by
  have htext : bytes (intToHex level).toList
      = 48 :: 120 :: bytes (Nat.toDigits 16 level.toNat) := by
    simp only [intToHex, String.toList_append, String.toList_ofList]
    rfl
  rw [htext]
  exact stoul_toDigits (level.toNat_lt.trans (by norm_num))

/-- What is read of a level is its text. -/
lemma text_readCallback {ctx : Option FuseContext} {size : ℕ} {offset read : ℤ} {text : String}
    (h : (f.readCallback ctx debugFilePath size offset read).1.text = some text) :
    text = intToHex f.mDebugOptions.debugLevel := by
  rw [readCallback, if_pos rfl, controlRead] at h
  split at h
  · cases h
  · exact (Option.some.inj h).symm

/-- A write to `/debug` at the start. -/
lemma takesEffect_debug_iff (buf : List UInt8) (write : ℤ) :
    f.TakesEffect buf (f.writeFileCallback debugFilePath buf 0 write) ↔ f.LevelFits buf := by
  cases hparsed : stoul 16 buf with
  | none =>
      rw [writeFileCallback_debug_none f hparsed]
      refine iff_of_true (Or.inr ⟨rfl, rfl⟩) fun level hlevel => ?_
      exact absurd (hparsed.symm.trans hlevel) nofun
  | some level =>
      have hsize : toInt32 buf.length = buf.length ↔ buf.length < 2 ^ 31 := toInt32_eq_natCast_iff
      have hlevel : (UInt32.ofNat level).toNat = level ↔ level < 2 ^ 32 := by
        rw [UInt32.toNat_ofNat']
        exact Nat.mod_eq_iff_lt (by norm_num)
      have hsame : UInt32.ofNat level = f.mDebugOptions.debugLevel
          ↔ level % 2 ^ 32 = f.mDebugOptions.debugLevel.toNat := by
        rw [← UInt32.toNat_inj, UInt32.toNat_ofNat']
      have hfits : f.LevelFits buf ↔ level < 2 ^ 32 ∧ buf.length < 2 ^ 31 ∨
          toInt32 buf.length = 0 ∧ level % 2 ^ 32 = f.mDebugOptions.debugLevel.toNat := by
        refine ⟨fun h => h level hparsed, fun h level' hlevel' => ?_⟩
        obtain rfl := Option.some.inj (hparsed.symm.trans hlevel')
        exact h
      rw [writeFileCallback_debug f hparsed, hfits, TakesEffect, hparsed]
      dsimp only
      rw [hsame]
      constructor
      · rintro (⟨level', heq, hlength, hnat⟩ | hnothing)
        · obtain rfl := Option.some.inj heq
          exact Or.inl ⟨hlevel.mp hnat, hsize.mp hlength⟩
        · exact Or.inr hnothing
      · rintro (⟨hnat, hlength⟩ | hnothing)
        · exact Or.inl ⟨level, rfl, hsize.mpr hlength, hlevel.mpr hnat⟩
        · exact Or.inr hnothing

/-- **A write to `/debug` takes effect or not at all** iff the level fits, and the text that is read
of a level sets the level to it. -/
theorem takesEffect_iff (buf : List UInt8) (write : ℤ) :
    (f.TakesEffect buf (f.writeFileCallback debugFilePath buf 0 write) ↔ f.LevelFits buf) ∧
      ∀ (g : IFuse) (ctx : Option FuseContext) (size : ℕ) (offset read : ℤ) (text : String),
        (g.readCallback ctx debugFilePath size offset read).1.text = some text →
          (f.writeFileCallback debugFilePath (bytes text.toList) 0
            write).2.mDebugOptions.debugLevel = g.mDebugOptions.debugLevel := by
  refine ⟨f.takesEffect_debug_iff buf write, fun g ctx size offset read text htext => ?_⟩
  rw [g.text_readCallback htext, writeFileCallback_debug f (stoul_intToHex _)]
  exact UInt32.ofNat_toNat

/-- `100000000` is parsed in full, and the level is set to `0`. -/
theorem not_forall_takesEffect : ¬ ∀ (f : IFuse) (buf : List UInt8) (write : ℤ),
    f.TakesEffect buf (f.writeFileCallback debugFilePath buf 0 write) := by
  intro h
  have hfits := (takesEffect_debug_iff _ _ _).mp
    (h ⟨∅, ⟨1, false⟩, ∅, ∅⟩ (bytes "100000000".toList) 0) (2 ^ 32) (by decide +kernel)
  exact absurd hfits (by decide +kernel)

end IFuse

end StreamFs
