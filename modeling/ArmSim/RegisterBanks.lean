import ArmSim.Lib.CellStore
import ArmSim.Registers
import Mathlib.Data.List.Nodup

/-! The register file against the architecture's banking map: which physical register
an access names, and that the cells hold its last value. -/
namespace ArmSim
open Lib

/-- The seven processor modes. -/
inductive ArmMode where
  | usr
  | sys
  | svc
  | abt
  | und
  | irq
  | fiq
deriving DecidableEq, Repr

def ArmMode.code : ArmMode → ℕ
  | usr => Mode.USR
  | sys => Mode.SYS
  | svc => Mode.SVC
  | abt => Mode.ABT
  | und => Mode.UND
  | irq => Mode.IRQ
  | fiq => Mode.FIQ

/-- The exception modes have an SPSR. -/
def ArmMode.isException : ArmMode → Bool
  | usr | sys => false
  | _ => true

/-- The physical registers: those the modes share, those private to a mode, an SPSR
for each exception mode, and the CPSR. -/
inductive Physical where
  | shared (reg : ℕ)
  | banked (mode : ArmMode) (reg : ℕ)
  | spsr (mode : ArmMode)
  | cpsr
deriving DecidableEq, Repr

/-- What `reg` names in `mode`. -/
def physical (mode : ArmMode) (reg : ℕ) : Physical :=
  match mode with
  | .usr | .sys => .shared reg
  | .fiq => if 8 ≤ reg ∧ reg ≤ 14 then .banked .fiq reg else .shared reg
  | mode => if reg = 13 ∨ reg = 14 then .banked mode reg else .shared reg

/-- The registers a call of the register file can name. -/
inductive Access where
  | general (mode : ArmMode) (reg : Fin 16)
  | spsr (mode : ArmMode) (h : mode.isException = true)
  | cpsr

def Access.physical : Access → Physical
  | general mode reg => ArmSim.physical mode reg
  | spsr mode _ => .spsr mode
  | cpsr => .cpsr

/-- The abstract register file: each write updates one physical register. -/
def physicalFile (calls : List (Access × Word)) : Physical → Word :=
  calls.foldl (fun file call => Function.update file call.1.physical call.2) (fun _ => 0)

/-- The cell of a physical register. -/
def place : Physical → Cell
  | .shared reg => bankCell reg 0
  | .banked mode reg => bankCell reg (getReadWriteMode mode.code)
  | .spsr mode => bankCell SPSR (getReadWriteMode mode.code)
  | .cpsr => cpsrCell

/-- The physical registers that have cells of their own. -/
def allocated : List Physical :=
  (List.range 16).map .shared ++ (List.range' 8 5).map (.banked .fiq) ++
    [ArmMode.svc, .abt, .und, .irq].flatMap (fun mode => [.banked mode 13, .banked mode 14]) ++
    [ArmMode.svc, .abt, .und, .irq, .fiq].map .spsr ++ [.cpsr]

theorem place_injective : ∀ x ∈ allocated, ∀ y ∈ allocated, place x = place y → x = y := by
  -- The 35 cells are computed and compared.
  have h : (allocated.map place).Nodup := by decide
  exact fun x hx y hy he => List.inj_on_of_nodup_map h hx hy he

/-- The accesses whose pointers lead past the cells of their register: `r13` and `r14`
of the fast interrupt's mode. -/
def Access.outside : Access → Prop
  | general mode reg => mode = .fiq ∧ (reg = 13 ∨ reg = 14)
  | _ => False

theorem physical_allocated {a : Access} (h : ¬a.outside) : a.physical ∈ allocated := by
  cases a with
  | general mode reg =>
    -- Sixteen registers in each of the seven modes.
    have hall : ∀ reg : Fin 16, ¬(mode = .fiq ∧ (reg = 13 ∨ reg = 14)) →
        physical mode reg ∈ allocated := by
      cases mode <;> decide
    exact hall reg h
  | spsr mode hm =>
    cases mode with
    | usr | sys => exact absurd hm (by decide)
    | svc | abt | und | irq | fiq =>
      show Physical.spsr _ ∈ allocated
      decide
  | cpsr => decide

/-- The pointer table realises the banking map. -/
theorem bankPointer_place {mode : ArmMode} {reg : Fin 16}
    (h : ¬(mode = .fiq ∧ (reg = 13 ∨ reg = 14))) :
    bankPointer reg (getReadWriteMode mode.code) = .ok (place (physical mode reg)) := by
  have hall : ∀ reg : Fin 16, ¬(mode = .fiq ∧ (reg = 13 ∨ reg = 14)) →
      bankPointer reg (getReadWriteMode mode.code) = .ok (place (physical mode reg)) := by
    cases mode <;> decide
  exact hall reg h

theorem place_ne_cpsrCell {x : Physical} (hx : x ∈ allocated) (h : x ≠ .cpsr) :
    place x ≠ cpsrCell :=
  fun he => h (place_injective x hx .cpsr (by decide) he)

theorem physical_ne_cpsr (mode : ArmMode) (reg : ℕ) : physical mode reg ≠ .cpsr := by
  unfold physical
  split <;> (try split) <;> simp

theorem spsr_bank {mode : ArmMode} (h : mode.isException = true) :
    2 ≤ getReadWriteMode mode.code := by
  cases mode with
  | usr | sys => cases h
  | _ => decide

section calls
variable [Platform]

def Access.write (a : Access) (r : Registers) (value : Word) : Except Crash Registers :=
  match a with
  | general mode reg => registersWrite r reg mode.code value
  | spsr mode _ => registersWriteSpsr r mode.code value
  | cpsr => .ok (registersWriteCpsr r value)

def Access.read (a : Access) (r : Registers) : Except Crash Word :=
  match a with
  | general mode reg => registersRead r reg mode.code
  | spsr mode _ => registersReadSpsr r mode.code
  | cpsr => .ok (registersReadCpsr r)

/-- The calls in order, on the file `registers_create` makes. -/
def runCalls (calls : List (Access × Word)) : Except Crash Registers :=
  calls.foldlM (fun r call => call.1.write r call.2) registersCreate

/-- The register file as a store of cells. -/
def registerCells : CellStore Registers Cell Word where
  get := Registers.get
  set := Registers.set
  get_set_self := Registers.get_set_self
  get_set_of_ne r _ _ v h := Registers.get_set_of_ne r v h

theorem registerCells_ext (r r' : Registers)
    (h : ∀ c, registerCells.get r c = registerCells.get r' c) : r = r' := by
  funext c
  exact Registers.get_injective (h c)

/-- The file as a store of cells.  The CPSR is kept in the host's byte order. -/
def registerStore : CellStore Registers Cell Word where
  get r c := if c = cpsrCell then r c else r.get c
  set r c v := if c = cpsrCell then Function.update r c v else r.set c v
  get_set_self r c v := by
    split <;> simp
  get_set_of_ne r c c' v h := by
    by_cases hc : c = cpsrCell <;> by_cases hc' : c' = cpsrCell
    · exact absurd (hc'.trans hc.symm) h
    · simp only [if_pos hc, if_neg hc', Registers.get, Function.update_of_ne h]
    · simp only [if_neg hc, if_pos hc', Registers.set_of_ne r v h]
    · simp only [if_neg hc, if_neg hc', Registers.get_set_of_ne r v h]

theorem registerStore_get {c : Cell} (h : c ≠ cpsrCell) (r : Registers) :
    registerStore.get r c = r.get c := if_neg h

theorem registerStore_set {c : Cell} (h : c ≠ cpsrCell) (r : Registers) (v : Word) :
    registerStore.set r c v = r.set c v := if_neg h

/-- An access inside the cells is an access of the store. -/
theorem Access.write_eq {a : Access} (h : ¬a.outside) (r : Registers) (v : Word) :
    a.write r v = .ok (registerStore.set r (place a.physical) v) := by
  have hcell := place_ne_cpsrCell (physical_allocated h)
  cases a with
  | general mode reg =>
    rw [registerStore_set (hcell (physical_ne_cpsr mode reg)), write, registersWrite_eq,
      bankPointer_place h]
    rfl
  | spsr mode hm =>
    have h2 := spsr_bank hm
    have hs : registersModeHasSpsr mode.code = true := decide_eq_true h2
    rw [registerStore_set (hcell (by simp [physical])), write, registersWriteSpsr, if_pos hs,
      registersWrite_eq, bankPointer_spsr h2 (getReadWriteMode_lt _)]
    rfl
  | cpsr => rfl

theorem Access.read_eq {a : Access} (h : ¬a.outside) (r : Registers) :
    a.read r = .ok (registerStore.get r (place a.physical)) := by
  have hcell := place_ne_cpsrCell (physical_allocated h)
  cases a with
  | general mode reg =>
    rw [registerStore_get (hcell (physical_ne_cpsr mode reg)), read, registersRead_eq,
      bankPointer_place h]
    rfl
  | spsr mode hm =>
    rw [registerStore_get (hcell (by simp [physical])), read, registersReadSpsr,
      registersRead_eq, bankPointer_spsr (spsr_bank hm) (getReadWriteMode_lt _)]
    rfl
  | cpsr => rfl

/-- An access outside the cells is an error. -/
theorem Access.outside_crashes {a : Access} (h : a.outside) (r : Registers) (v : Word) :
    a.write r v = .error .registerCell ∧ a.read r = .error .registerCell := by
  cases a with
  | general mode reg =>
    obtain ⟨rfl, hreg⟩ := h
    have hp : bankPointer reg (getReadWriteMode ArmMode.fiq.code) = .error .registerCell := by
      rcases hreg with rfl | rfl <;> decide
    simp only [write, read, registersWrite_eq, registersRead_eq, hp, error_bind, and_self]
  | spsr mode hm => exact absurd h id
  | cpsr => exact absurd h id

/-- The calls of a file from `r` on, as writes of the store. -/
theorem foldlM_write (r : Registers) {calls : List (Access × Word)}
    (h : ∀ c ∈ calls, ¬c.1.outside) :
    calls.foldlM (fun r call => call.1.write r call.2) r =
      .ok ((calls.map (fun c => (c.1.physical, c.2))).foldl
        (fun r w => registerStore.set r (place w.1) w.2) r) := by
  induction calls generalizing r with
  | nil => rfl
  | cons c calls ih =>
    rw [List.foldlM_cons, Access.write_eq (h c List.mem_cons_self)]
    exact ih _ (fun c' hc' => h c' (List.mem_cons_of_mem _ hc'))

/-- One access outside the cells stops the calls. -/
theorem foldlM_write_inside {r r' : Registers} {calls : List (Access × Word)}
    (h : calls.foldlM (fun r call => call.1.write r call.2) r = .ok r') :
    ∀ c ∈ calls, ¬c.1.outside := by
  induction calls generalizing r with
  | nil => exact fun c hc => absurd hc List.not_mem_nil
  | cons c calls ih =>
    rw [List.foldlM_cons] at h
    obtain ⟨r₁, hc, hrest⟩ := bind_eq_ok.mp h
    intro c' hc'
    -- The first call did not fail, and the others follow by induction.
    rcases List.mem_cons.mp hc' with rfl | hmem
    · intro hout
      rw [(Access.outside_crashes hout r c'.2).1] at hc
      cases hc
    · exact ih hrest c' hmem

theorem registersCreate_represents :
    Represents registerStore place (· ∈ allocated) registersCreate (fun _ => 0) := by
  intro x _
  change (if place x = cpsrCell then (0 : Word) else registersCreate.get (place x)) = 0
  split
  · rfl
  · have hzero : switchEndian 0 = 0 := by decide
    unfold Registers.get
    split
    · rfl
    · exact hzero

/-- The calls and the later read stay inside the cells, and the read returns the last
value written to the physical register it names. -/
def ReadsLastWritten (calls : List (Access × Word)) (a : Access) : Prop :=
  ∃ r, runCalls calls = .ok r ∧ a.read r = .ok (physicalFile calls a.physical)

/-- The file realises the banking map exactly when no access goes to `r13` or `r14` of
the fast interrupt's mode. -/
theorem reads_last_written_iff (calls : List (Access × Word)) (a : Access) :
    ReadsLastWritten calls a ↔ ¬a.outside ∧ ∀ c ∈ calls, ¬c.1.outside := by
  constructor
  · rintro ⟨r, hrun, hread⟩
    refine ⟨?_, foldlM_write_inside hrun⟩
    intro hout
    rw [(Access.outside_crashes hout r 0).2] at hread
    cases hread
  · rintro ⟨ha, hcalls⟩
    refine ⟨_, foldlM_write registersCreate hcalls, ?_⟩
    -- The calls refine the updates of the abstract file, write by write.
    have hrep := registersCreate_represents.foldl (fun x y hx hy => place_injective x hx y hy)
      (calls.map (fun c => (c.1.physical, c.2))) (by
        intro w hw
        obtain ⟨c, hc, rfl⟩ := List.mem_map.mp hw
        exact physical_allocated (hcalls c hc))
    rw [Access.read_eq ha, hrep _ (physical_allocated ha), List.foldl_map]
    rfl

end calls

/-- `registers_write(r, 13, FIQ, 5)` and the read of the same register. -/
theorem reads_last_written_fiq :
    ¬@ReadsLastWritten makefile [(.general .fiq 13, 5)] (.general .fiq 13) := by
  rintro ⟨r, hrun, -⟩
  have hcrash : @runCalls makefile [(.general .fiq 13, 5)] = .error .registerCell := rfl
  rw [hcrash] at hrun
  cases hrun

end ArmSim
