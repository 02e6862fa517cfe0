import Martos.Platform.Registers

/-!
# The first frame of a task, word by word

`taskcontext_init` fills in the frame with a loop that clears it from the top down and stops
when the pointer reaches the frame, before it clears the word there: r4, the lowest word,
keeps what the memory held (`load_firstFrame`). Then it sets four registers, and at the end it
verifies that the frame lies in the stack, when everything is already written.

`frameWrites` lists the writes one by one, whatever the memory holds; `fillFrame_eq_store` says
that these are the writes of `fillFrame`. `first_frame_determined_iff` says when the frame is
what it should be and no write leaves the stack.
-/

namespace Martos

open Blocks Checked

/-- The loop of `taskcontext_init` that clears the frame, for at most `n` rounds: its writes. -/
def clearWrites (frame : Word) : ℕ → Word → Option (List (Word × Word))
  | 0, _ => none
  | n + 1, tos =>
    let tos := tos - 4
    if tos = frame then some [] else do
      let writes ← clearWrites frame n tos
      return (tos, 0) :: writes

/-- What `taskcontext_init` writes to the stack whose top is `tos`: each address, and the word
written there, in order. -/
def frameWrites (initPc userData deadEnd tos : Word) : Option (List (Word × Word)) := do
  let frame := tos - BitVec.ofNat 32 stackFrameSize
  let writes ← clearWrites frame (stackFrameSize / 4) tos
  return writes ++ [(frame + 32, userData), (frame + 52, deadEnd), (frame + 56, initPc), (frame + 60, epsrT)]

/-- `taskcontext_init`: its writes to the stack, and how it ends. The assertions on the
alignment come before the writes, those of `taskcontext_verify` after them. -/
def taskcontextInitRun (initPc userData deadEnd stack stackSize : Word) :
    Option (List (Word × Word) × Except Fault TaskContext) :=
  if stack.toNat % 4 = 0 ∧ stackSize.toNat % 4 = 0 then do
    let tos := stack + stackSize
    let context : TaskContext := ⟨(tos - BitVec.ofNat 32 stackFrameSize).toNat, stack.toNat, tos.toNat⟩
    let writes ← frameWrites initPc userData deadEnd tos
    return (writes, do taskcontextVerify context; return context)
  else some ([], .error .stackAlignment)

/-- The words of the frame as they should be, from r4 to xpsr. -/
def firstFrame (initPc userData deadEnd : Word) : List Word :=
  [0, 0, 0, 0, 0, 0, 0, 0, userData, 0, 0, 0, 0, deadEnd, initPc, epsrT]

/-- The address is one of the `stackSize` addresses from `stack` on. -/
def InStack (stack stackSize a : Word) : Prop := (a - stack).toNat < stackSize.toNat

/-- `taskcontext_init` gives every word of the frame its value, changes nothing outside the
frame, and in no case, not even when it fails, writes outside the stack. -/
def FillsFrame (initPc userData deadEnd stack stackSize : Word) (mem : Word → Word) : Prop :=
  ∃ writes r, taskcontextInitRun initPc userData deadEnd stack stackSize = some (writes, r) ∧
    ((∃ context, r = .ok context) →
      load (store mem writes) (block 4 (stack + stackSize - 64) 16) = firstFrame initPc userData deadEnd ∧
      ∀ a ∉ block 4 (stack + stackSize - 64) 16, store mem writes a = mem a) ∧
    ∀ w ∈ writes, InStack stack stackSize w.1

section

variable {initPc userData deadEnd tos frame stack stackSize : Word} {mem : Word → Word}

/-! ### The writes -/

theorem clearFrame_eq_store (frame : Word) (n : ℕ) (tos : Word) (mem : Word → Word) :
    clearFrame frame n tos mem = (clearWrites frame n tos).map (store mem) := by
  induction n generalizing tos mem with
  | zero => rfl
  | succ n ih =>
    unfold clearFrame clearWrites
    dsimp only
    by_cases hend : tos - 4 = frame
    · rw [if_pos hend, if_pos hend]
      rfl
    · rw [if_neg hend, if_neg hend, ih]
      cases clearWrites frame n (tos - 4) with
      | none => rfl
      | some writes => rfl

/-- `frameWrites` lists the writes of `fillFrame`. -/
theorem fillFrame_eq_store (initPc userData deadEnd tos : Word) (mem : Word → Word) :
    fillFrame initPc userData deadEnd tos mem = (frameWrites initPc userData deadEnd tos).map (store mem) := by
  unfold fillFrame frameWrites
  dsimp only
  rw [clearFrame_eq_store]
  cases clearWrites (tos - BitVec.ofNat 32 stackFrameSize) (stackFrameSize / 4) tos with
  | none => rfl
  | some writes => simp [setFrame, store, List.foldl_append]

/-- The loop ends, and has cleared every word of the frame but the first, from the top down. -/
theorem clearWrites_eq (frame : Word) (n : ℕ) (hn : n + 1 < 2 ^ 30) :
    clearWrites frame (n + 1) (frame + BitVec.ofNat 32 (4 * (n + 1))) =
      some ((List.range n).reverse.map fun i => (frame + BitVec.ofNat 32 (4 * (i + 1)), 0)) := by
  have hlow (n : ℕ) : frame + BitVec.ofNat 32 (4 * (n + 1)) - 4 = frame + BitVec.ofNat 32 (4 * n) := by
    rw [Nat.mul_succ, BitVec.ofNat_add, ← BitVec.add_assoc]
    exact BitVec.add_sub_cancel _ _
  induction n with
  | zero =>
    rw [clearWrites, hlow 0]
    exact if_pos (BitVec.add_zero frame)
  | succ n ih =>
    have hne : frame + BitVec.ofNat 32 (4 * (n + 1)) ≠ frame := by
      intro heq
      have hz : BitVec.ofNat 32 (4 * (n + 1)) = 0#32 := by simpa using heq
      have hz := congrArg BitVec.toNat hz
      rw [BitVec.toNat_ofNat, Nat.mod_eq_of_lt (by omega)] at hz
      simp at hz
    rw [clearWrites, hlow (n + 1)]
    simp only [if_neg hne, ih (by omega), List.range_succ, List.reverse_append, List.reverse_cons,
      List.reverse_nil, List.nil_append, List.cons_append, List.map_cons]
    rfl

/-- The words cleared, and then the four registers. -/
def wordsWritten (initPc userData deadEnd frame : Word) : List (Word × Word) :=
  [(frame + 60, 0), (frame + 56, 0), (frame + 52, 0), (frame + 48, 0), (frame + 44, 0), (frame + 40, 0),
    (frame + 36, 0), (frame + 32, 0), (frame + 28, 0), (frame + 24, 0), (frame + 20, 0), (frame + 16, 0),
    (frame + 12, 0), (frame + 8, 0), (frame + 4, 0),
    (frame + 32, userData), (frame + 52, deadEnd), (frame + 56, initPc), (frame + 60, epsrT)]

theorem frameWrites_eq (initPc userData deadEnd tos : Word) :
    frameWrites initPc userData deadEnd tos = some (wordsWritten initPc userData deadEnd (tos - 64)) := by
  have htop : tos - 64 + BitVec.ofNat 32 (4 * 16) = tos := BitVec.sub_add_cancel _ _
  have hclear := clearWrites_eq (tos - 64) 15 (by decide)
  rw [htop] at hclear
  change (clearWrites (tos - 64) 16 tos >>= _) = _
  rw [hclear]
  rfl

/-- The frame after the writes: its first word, where r4 is, has not been written. -/
theorem load_wordsWritten (initPc userData deadEnd frame : Word) (mem : Word → Word) :
    load (store mem (wordsWritten initPc userData deadEnd frame)) (block 4 frame 16) =
      mem frame :: (firstFrame initPc userData deadEnd).tail := by
  simp [load, block, List.range_succ, wordsWritten, firstFrame]

/-- The places in the frame that are written, one after the other. -/
def placesWritten : List ℕ := [15, 14, 13, 12, 11, 10, 9, 8, 7, 6, 5, 4, 3, 2, 1, 8, 13, 14, 15]

theorem wordsWritten_fst : (wordsWritten initPc userData deadEnd frame).map Prod.fst =
    placesWritten.map fun i => frame + BitVec.ofNat 32 (4 * i) := rfl

/-- Every address written is in the frame, and not its first one. -/
theorem exists_of_mem_wordsWritten {w : Word × Word} (hw : w ∈ wordsWritten initPc userData deadEnd frame) :
    ∃ i, 0 < i ∧ i < 16 ∧ w.1 = frame + BitVec.ofNat 32 (4 * i) := by
  have hfst : w.1 ∈ (wordsWritten initPc userData deadEnd frame).map Prod.fst := List.mem_map_of_mem hw
  rw [wordsWritten_fst] at hfst
  obtain ⟨i, hi, hwi⟩ := List.mem_map.mp hfst
  have hplaces : ∀ i ∈ placesWritten, 0 < i ∧ i < 16 := by decide
  exact ⟨i, (hplaces i hi).1, (hplaces i hi).2, hwi.symm⟩

/-- The second word of the frame is written: the last one that the loop clears. -/
theorem mem_wordsWritten : (frame + 4, 0) ∈ wordsWritten initPc userData deadEnd frame := by
  simp [wordsWritten]

/-- Nothing is written outside the frame. -/
theorem store_wordsWritten_of_notMem {a : Word} (ha : a ∉ block 4 frame 16) :
    store mem (wordsWritten initPc userData deadEnd frame) a = mem a := by
  refine store_of_notMem fun w hw hwa => ?_
  obtain ⟨i, -, hi, hwi⟩ := exists_of_mem_wordsWritten hw
  exact ha (List.mem_map.mpr ⟨i, List.mem_range.mpr hi, hwi.symm.trans hwa⟩)

/-! ### The outcome -/

/-- An address in the frame, of which the stack reaches down to the last `stackSize` bytes. -/
theorem inStack_frame {i : ℕ} (hi : i < 64) :
    InStack stack stackSize (stack + stackSize - 64 + BitVec.ofNat 32 i) ↔ 64 ≤ stackSize.toNat + i := by
  unfold InStack
  simp only [BitVec.toNat_sub, BitVec.toNat_add, BitVec.toNat_ofNat]
  have h64 : (64 : Word).toNat = 64 := rfl
  have hstack := stack.isLt
  have hsize := stackSize.isLt
  rw [h64]
  omega

/-- On an aligned stack `taskcontext_init` writes the frame, and ends as `taskcontextInit` does. -/
theorem taskcontextInitRun_eq (hs : stack.toNat % 4 = 0) (hz : stackSize.toNat % 4 = 0) :
    taskcontextInitRun initPc userData deadEnd stack stackSize =
      some (wordsWritten initPc userData deadEnd (stack + stackSize - 64),
        taskcontextInit stack.toNat stackSize.toNat) := by
  have htos : (stack.toNat + stackSize.toNat) % 2 ^ 32 = (stack + stackSize).toNat := (BitVec.toNat_add ..).symm
  have hframe : ((stack + stackSize).toNat + (2 ^ 32 - stackFrameSize)) % 2 ^ 32 =
      (stack + stackSize - BitVec.ofNat 32 stackFrameSize).toNat := by
    have h64 : (BitVec.ofNat 32 stackFrameSize).toNat = stackFrameSize := rfl
    rw [BitVec.toNat_sub, h64, Nat.add_comm]
  have houtcome : taskcontextInit stack.toNat stackSize.toNat = (do
      let context : TaskContext :=
        ⟨(stack + stackSize - BitVec.ofNat 32 stackFrameSize).toNat, stack.toNat, (stack + stackSize).toNat⟩
      taskcontextVerify context
      return context) := by
    simp only [taskcontextInit, assertThat_of _ hs, assertThat_of _ hz, ok_bind, htos, hframe]
  unfold taskcontextInitRun
  rw [if_pos ⟨hs, hz⟩, houtcome]
  dsimp only
  rw [frameWrites_eq]
  rfl

/-- `taskcontext_verify` passes if the frame does not begin below the stack: the frame ends
where the stack does. -/
theorem taskcontextInit_ok_iff (hs : stack.toNat % 4 = 0) (hz : stackSize.toNat % 4 = 0) :
    (∃ context, taskcontextInit stack.toNat stackSize.toNat = .ok context) ↔ stack ≤ stack + stackSize - 64 := by
  have h64 : (64 : Word).toNat = 64 := rfl
  have hframe : ((stack.toNat + stackSize.toNat) % 2 ^ 32 + (2 ^ 32 - 64)) % 2 ^ 32 =
      (stack + stackSize - 64).toNat := by
    rw [BitVec.toNat_sub, h64, BitVec.toNat_add, Nat.add_comm]
  have htop : ((stack + stackSize - 64).toNat + 64) % 2 ^ 32 = (stack.toNat + stackSize.toNat) % 2 ^ 32 := by
    rw [← hframe]
    omega
  simp only [taskcontextInit, taskcontextVerify, stackFrameSize, bind_eq_ok, assertThat_eq_ok, pure_eq_ok, hframe,
    htop, BitVec.le_def]
  constructor
  · rintro ⟨_, -, -, -, -, -, ⟨-, hle, -⟩, -⟩
    exact hle
  · intro hle
    exact ⟨_, (), hs, (), hz, (), ⟨(), hle, le_refl _⟩, rfl⟩

/-! ### The contract of the first frame -/

/-- If the call completes and the frame is what it should be, its first word was zero before. -/
theorem FillsFrame.word (hs : stack.toNat % 4 = 0) (hz : stackSize.toNat % 4 = 0)
    (h : FillsFrame initPc userData deadEnd stack stackSize mem) (hle : stack ≤ stack + stackSize - 64) :
    mem (stack + stackSize - 64) = 0 := by
  obtain ⟨writes, r, hrun, hframe, -⟩ := h
  rw [taskcontextInitRun_eq hs hz] at hrun
  obtain ⟨rfl, rfl⟩ := Prod.mk.inj (Option.some.inj hrun)
  obtain ⟨hload, -⟩ := hframe ((taskcontextInit_ok_iff hs hz).mpr hle)
  rw [load_wordsWritten] at hload
  exact (List.cons.inj hload).1

/-- If no write leaves the stack, there is room for the frame but its first word. -/
theorem FillsFrame.room (hs : stack.toNat % 4 = 0) (hz : stackSize.toNat % 4 = 0)
    (h : FillsFrame initPc userData deadEnd stack stackSize mem) : 60 ≤ stackSize.toNat := by
  obtain ⟨writes, r, hrun, -, hin⟩ := h
  rw [taskcontextInitRun_eq hs hz] at hrun
  obtain ⟨rfl, rfl⟩ := Prod.mk.inj (Option.some.inj hrun)
  have hlast : InStack stack stackSize (stack + stackSize - 64 + BitVec.ofNat 32 4) :=
    hin (stack + stackSize - 64 + 4, 0) mem_wordsWritten
  have hroom := (inStack_frame (by decide)).mp hlast
  omega

/-- **The first frame of a task.** On an aligned stack: `taskcontext_init`, if it completes,
gives each of the sixteen words of the frame its value and changes nothing else, and in every
case it writes in the stack only, exactly if the stack has at least sixty bytes and, where the
frame lies in the stack, the word for r4 was zero already. -/
theorem first_frame_determined_iff (hs : stack.toNat % 4 = 0) (hz : stackSize.toNat % 4 = 0) :
    FillsFrame initPc userData deadEnd stack stackSize mem ↔
      60 ≤ stackSize.toNat ∧ (stack ≤ stack + stackSize - 64 → mem (stack + stackSize - 64) = 0) := by
  constructor
  · exact fun h => ⟨h.room hs hz, h.word hs hz⟩
  · rintro ⟨hroom, hword⟩
    refine ⟨wordsWritten initPc userData deadEnd (stack + stackSize - 64),
      taskcontextInit stack.toNat stackSize.toNat, taskcontextInitRun_eq hs hz, fun hok => ?_, fun w hw => ?_⟩
    · refine ⟨?_, fun a ha => store_wordsWritten_of_notMem ha⟩
      rw [load_wordsWritten, hword ((taskcontextInit_ok_iff hs hz).mp hok)]
      rfl
    · obtain ⟨i, hpos, hi, hwi⟩ := exists_of_mem_wordsWritten hw
      rw [hwi]
      exact (inStack_frame (by omega)).mpr (by omega)

end

/-- The theorem at a stack of a kilobyte in memory that is zero at the word of r4 only. -/
theorem first_frame_determined_iff_zero :
    FillsFrame 0x08000201 7 0x08000101 0x20000000 0x400 fun a => if a = 0x200003C0 then 0 else 1 :=
  (first_frame_determined_iff rfl rfl).mpr ⟨by decide, fun _ => by decide⟩

/-- In memory that is not zero the contract fails on the same stack: r4 is not cleared. -/
theorem first_frame_keeps_r4 : ¬ ∀ (initPc userData deadEnd stack stackSize : Word) (mem : Word → Word),
    stack.toNat % 4 = 0 → stackSize.toNat % 4 = 0 → FillsFrame initPc userData deadEnd stack stackSize mem := by
  intro hall
  have hword := (hall 0x08000201 7 0x08000101 0x20000000 0x400 (fun _ => 1) rfl rfl).word rfl rfl (by decide)
  exact absurd hword (by decide)

/-- On a stack of fourteen words, words are written below the stack before the verification. -/
example : ¬ FillsFrame 0x08000201 7 0x08000101 0x20000000 56 fun _ => 0 :=
  fun h => absurd (h.room rfl rfl) (by decide)

end Martos
