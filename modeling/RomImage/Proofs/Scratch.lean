import RomImage.Scratch

/-!
# Which scratch buffers there are

A buffer of no bytes is never handed out: neither a size that is given nor a setting leads to one.
What is left besides a refusal is a size for which there is no memory, and then there is no buffer
at all.
-/

namespace RomImage

inductive Misuse.IsBufferSize : Misuse → Prop
  | emptyScratch (size : Int) : IsBufferSize (.emptyScratch size)
  | unreadableSetting (text : String) : IsBufferSize (.unreadableSetting text)
  | nonPositiveSetting (size : Int) : IsBufferSize (.nonPositiveSetting size)

namespace Settings

theorem readBufferSize_cases (setting : Option String) :
    (∃ cause, cause.IsBufferSize ∧ readBufferSize setting = .error cause) ∨
      ∃ size, 0 < size ∧ readBufferSize setting = .ok size := by
  rw [readBufferSize]
  split
  · exact .inr ⟨defaultBufferSize, by decide, rfl⟩
  · split
    · exact .inl ⟨_, .unreadableSetting _, rfl⟩
    · rename_i size _
      split
      · exact .inl ⟨_, .nonPositiveSetting size, rfl⟩
      · exact .inr ⟨size.toNat, by omega, rfl⟩

end Settings

namespace Scratch

inductive Asks (setting : Option String) : Option Int → Nat → Prop
  | given (size : Nat) : Asks setting (some size) size
  | set {size : Nat} (hset : Settings.readBufferSize setting = .ok size) : Asks setting none size

def IsUsable : Scratch → Prop
  | ready buffer => 0 < buffer.length
  | pending _ => True

inductive Allots [Machine] (size : Option Int) (setting : Option String)
    : Except Failure Buffer → Prop
  | refused {cause : Misuse} (hcause : cause.IsBufferSize) :
      Allots size setting (.error (.misuse cause))
  | buffer {count : Nat} (hasks : Asks setting size count) (hcount : 0 < count)
      (hroom : Fault.ofAllocation? count = none) : Allots size setting (.ok (.zeros count))
  | noRoom {count : Nat} {fault : Fault} (hasks : Asks setting size count) (hcount : 0 < count)
      (hfault : Fault.ofAllocation? count = some fault) :
      Allots size setting (.error (.fault fault))

theorem allots_allocate [Machine] {size : Option Int} {setting : Option String} {count : Nat}
    (hasks : Asks setting size count) (hcount : 0 < count) :
    Allots size setting (allocate count) := by
  rw [allocate, if_neg (by omega), Int.toNat_natCast]
  cases hroom : Fault.ofAllocation? count with
  | none => exact .buffer hasks hcount hroom
  | some fault => exact .noRoom hasks hcount hroom

theorem allots_allocateOr [Machine] (size : Option Int) (setting : Option String) :
    Allots size setting (allocateOr size setting) := by
  cases size with
  | some size =>
      by_cases hsign : size ≤ 0
      · rw [allocateOr, allocate, if_pos hsign]
        exact .refused (.emptyScratch size)
      · obtain ⟨count, rfl⟩ := Int.eq_ofNat_of_zero_le (Int.le_of_lt (Int.not_le.mp hsign))
        exact allots_allocate (.given count) (by omega)
  | none =>
      obtain ⟨cause, hcause, hread⟩ | ⟨count, hcount, hread⟩ :=
        Settings.readBufferSize_cases setting
      · rw [allocateOr, hread]
        exact .refused hcause
      · rw [allocateOr, hread]
        exact allots_allocate (.set hread) hcount

/-- So it ends when a buffer is allocated from the settings. -/
theorem allots_pending [Machine] (setting : Option String) : Allots none setting
    (pending setting).buffer :=
  allots_allocateOr none setting

/-- No buffer is empty, handed in or allocated. -/
theorem IsUsable.length_pos [Machine] {scratch : Scratch} (husable : scratch.IsUsable)
    {buffer : Buffer}
    (hbuffer : scratch.buffer = .ok buffer) : 0 < buffer.length := by
  cases scratch with
  | ready given => exact Except.ok.inj hbuffer ▸ husable
  | pending setting =>
      have hallots := allots_pending setting
      rw [hbuffer] at hallots
      cases hallots with
      | @buffer count _ hcount _ =>
          rw [Buffer.length]
          exact Nat.lt_of_lt_of_le hcount (Nat.le_add_left _ _)

/-- Only the size of a buffer is a misuse in asking for it. -/
theorem isBufferSize_of_buffer [Machine] {scratch : Scratch} {cause : Misuse}
    (hbuffer : scratch.buffer = .error (.misuse cause)) : cause.IsBufferSize := by
  cases scratch with
  | ready buffer => exact absurd hbuffer (by simp [Scratch.buffer])
  | pending setting =>
      have hallots := allots_pending setting
      rw [hbuffer] at hallots
      cases hallots with
      | refused hcause => exact hcause

/-- Two to the power of sixty-three leads neither to a refusal nor to a buffer, whether it is given
or set. -/
theorem allocateOr_sizeBound :
    (∃ text, allocateOr (some 9223372036854775808) none = .error (.fault (.tooLarge text))) ∧
    (∃ text, allocateOr none (some "9223372036854775808") = .error (.fault (.tooLarge text))) ∧
    ¬ ∀ size setting, (∃ cause, allocateOr size setting = .error (.misuse cause)) ∨
      ∃ buffer, 0 < buffer.length ∧ allocateOr size setting = .ok buffer := by
  have hset : Settings.readBufferSize (some "9223372036854775808") = .ok 9223372036854775808 := rfl
  obtain ⟨text, hlacking⟩ :
    ∃ text, allocate 9223372036854775808 = .error (.fault (.tooLarge text)) := ⟨_, rfl⟩
  have hgiven : allocateOr (some 9223372036854775808) none = .error (.fault (.tooLarge text)) :=
    hlacking
  refine ⟨⟨text, hgiven⟩, ⟨text, ?_⟩, fun hclaim => ?_⟩
  · rw [allocateOr, hset]
    exact hlacking
  · obtain ⟨cause, hrefused⟩ | ⟨buffer, -, hbuffer⟩ := hclaim (some 9223372036854775808) none
    · exact absurd (hgiven.symm.trans hrefused) (by simp)
    · exact absurd (hgiven.symm.trans hbuffer) (by simp)

end Scratch

end RomImage
