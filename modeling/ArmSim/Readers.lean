import ArmSim.Download
import ArmSim.RegisterImage

/-! The handlers as readers of the packet's text: none of them depends on what lies behind the
place where it stops, and each text fault has its place. -/
namespace ArmSim
open Lib

/-- A reader of the packet's text. -/
abbrev Reads {β : Type} (f : List Byte → Except GdbFault β) : Prop := ReadsPrefix .packetText f

section texts

theorem reads_cString : Reads cString := by
  intro s t hne
  induction s with
  | nil => exact absurd rfl hne
  | cons c s ih =>
    unfold cString at hne
    rw [List.cons_append]
    unfold cString
    split at hne
    · rename_i hc
      rw [if_pos hc, if_pos hc]
    · rename_i hc
      have hrest : cString s ≠ .error .packetText := by
        intro hs
        rw [hs] at hne
        exact hne rfl
      rw [if_neg hc, if_neg hc, ih hrest]

/-- Every conversion looks at a C string. -/
theorem reads_of_cString {β : Type} (g : List Byte → Except GdbFault β) :
    Reads (fun data => cString data >>= g) :=
  reads_cString.bind (fun s => readsPrefix_const (g s))

theorem reads_sscanfX (width : Option ℕ) (value : Word) :
    Reads (fun data => sscanfX width data value) := reads_of_cString _

theorem reads_sscanfXX (address size : Word) :
    Reads (fun data => sscanfXX data address size) := reads_of_cString _

theorem reads_sscanfHhxX (type : Byte) (address : Word) :
    Reads (fun data => sscanfHhxX data type address) := reads_of_cString _

theorem reads_atoi : Reads atoi := reads_of_cString _

/-- `index` hands on a pointer into the same text. -/
theorem reads_indexNext {β : Type} {g : TextPointer → Except GdbFault β}
    (hg : Reads (fun s => g (some s))) (c : Byte) : Reads (fun s => indexNext s c >>= g) := by
  intro s t hne
  dsimp only at hne ⊢
  induction s with
  | nil => exact absurd rfl hne
  | cons d s ih =>
    rw [List.cons_append]
    unfold indexNext at hne ⊢
    split_ifs at hne ⊢ with hc hnul
    · exact hg s t hne
    · rfl
    · exact ih hne

theorem reads_deref {β : Type} {g : List Byte → Except GdbFault β} (hg : Reads g) :
    Reads (fun s => TextPointer.deref (some s) >>= g) := hg

theorem reads_binaryByte {β : Type} {g : Byte → List Byte → Except GdbFault β}
    (hg : ∀ v, Reads (g v)) : Reads (fun s => binaryByte s >>= fun r => g r.1 r.2) := by
  -- An escape at the end of the text has its second character behind it.
  have hescaped : Reads (fun s => binaryByte (0x7D :: s) >>= fun r => g r.1 r.2) := by
    refine readsPrefix_cons ?_ (fun d => hg (d ^^^ 0x20))
    rfl
  refine readsPrefix_cons ?_ (fun c => ?_)
  · rfl
  · by_cases hc : c = 0x7D
    · rw [hc]
      exact hescaped
    · simp only [binaryByte_plain hc]
      exact hg c

theorem reads_writeMemoryLoop (size : ℕ) (gdb : Gdb) (address : Word) :
    Reads (fun s => writeMemoryLoop size gdb address (some s)) := by
  induction size generalizing gdb address with
  | zero => exact readsPrefix_const _
  | succ size ih =>
    -- One turn takes a byte, escaped or not, and leaves the rest of the text to the next.
    have hturn (v : Byte) : Reads (fun s =>
        simulated (memoryWriteByte gdb.arm.mem address v) >>= fun r =>
          if r.1 = 0 then
            writeMemoryLoop size { gdb with arm := { gdb.arm with mem := r.2 } } (address + 1)
              (some s)
          else pure ({ gdb with arm := { gdb.arm with mem := r.2 } }, false)) := by
      apply (readsPrefix_const _).bind
      intro r
      exact (ih _ _).ite (readsPrefix_const _)
    exact reads_deref (reads_binaryByte hturn)

end texts

section handlers
variable (env : GdbEnv) (gdb : Gdb)

theorem reads_query : Reads (query gdb) := reads_of_cString _

theorem reads_readMemory : Reads (readMemory env gdb) :=
  (reads_sscanfXX _ _).bind (fun _ => readsPrefix_const _)

theorem reads_setThread : Reads (setThread gdb) := by
  refine readsPrefix_cons ?_ (fun type => reads_atoi.bind (fun _ => readsPrefix_const _))
  rfl

theorem reads_setBreakpoint : Reads (setBreakpoint env gdb) :=
  (reads_sscanfHhxX _ _).bind (fun _ => readsPrefix_const _)

theorem reads_removeBreakpoint : Reads (removeBreakpoint env gdb) :=
  (reads_sscanfHhxX _ _).bind (fun _ => readsPrefix_const _)

theorem reads_writeMemoryBinary : Reads (writeMemoryBinary env gdb) := by
  apply (reads_sscanfXX _ _).bind
  rintro ⟨address, size⟩
  apply reads_indexNext
  apply ReadsPrefix.bind
  · exact (reads_writeMemoryLoop _ _ _).ite (readsPrefix_const _)
  · exact fun _ => readsPrefix_const _

variable [Platform]

theorem reads_readSingleRegister : Reads (readSingleRegister gdb) :=
  reads_atoi.bind (fun _ => readsPrefix_const _)

theorem reads_writeRegister (reg : ℕ) (value : Word) :
    Reads (fun data => writeRegister gdb reg data value) :=
  (reads_sscanfX _ _).bind (fun _ => readsPrefix_const _)

theorem reads_writeSingleRegister : Reads (writeSingleRegister env gdb) := by
  apply (reads_sscanfX _ _).bind
  intro reg
  apply reads_indexNext
  apply reads_deref
  exact (reads_writeRegister gdb reg.toNat _).bind (fun _ => readsPrefix_const _)

theorem reads_writeGeneralRegisters : Reads (writeGeneralRegisters env gdb) := by
  -- In this form each field is read at a place of its own.
  have heq := funext (writeGeneralRegisters_eq env gdb)
  rw [heq]
  apply ReadsPrefix.bind
  · apply readsPrefix_foldlM
    intro g i
    apply (reads_writeRegister g i (env.value i)).drop
    rfl
  · intro g
    apply ReadsPrefix.bind
    · apply (reads_sscanfX (some 8) (env.value 16)).drop
      rfl
    · exact fun _ => readsPrefix_const _

/-- Every handler needs no more than the text on which it has no text fault. -/
theorem reads_handler (fuel : ℕ) {index : Byte} {handle : Gdb → List Byte → Except GdbFault Gdb}
    (h : handler env fuel index = some handle) : Reads (handle gdb) := by
  unfold handler at h
  split at h
  · cases h
    exact readsPrefix_const _
  · cases h
    exact readsPrefix_const _
  · cases h
    exact readsPrefix_const _
  · cases h
    exact reads_query gdb
  · cases h
    exact readsPrefix_const _
  · cases h
    exact reads_readMemory env gdb
  · cases h
    exact reads_readSingleRegister gdb
  · cases h
    exact readsPrefix_const _
  · cases h
    exact reads_setThread gdb
  · cases h
    exact readsPrefix_const _
  · cases h
    exact readsPrefix_const _
  · cases h
    exact reads_writeGeneralRegisters env gdb
  · cases h
    exact reads_writeMemoryBinary env gdb
  · cases h
    exact reads_writeSingleRegister env gdb
  · cases h
    exact reads_removeBreakpoint env gdb
  · cases h
    exact reads_setBreakpoint env gdb
  · cases h

end handlers

end ArmSim
