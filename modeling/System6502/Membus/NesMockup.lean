import System6502.Membus.MemoryMap

/-!
# The NES mockup

The bus of `nes_mockup.c`: two kilobytes of memory that are seen four times, and the registers of
two chips that print what is asked of them.
-/

namespace System6502

open Lib

namespace MembusModule

variable {τ κ ι ε : Type*}

/-- A module over the first part of a state. -/
def onFirst (module : MembusModule τ) : MembusModule (τ × κ) where
  addrRange := module.addrRange
  readCallback := module.readCallback.map fun callback addr value state =>
    (callback addr value state.1).map fun (result, left, after) => (result, left, after, state.2)
  writeCallback := module.writeCallback.map fun callback addr value state =>
    (callback addr value state.1).map fun (result, after) => (result, after, state.2)

/-- A module that notes nothing serves the first part of a state beside what others note. -/
theorem Serves.onFirst [DecidableEq ι] {module : MembusModule τ} {look : τ → ι → Byte}
    {proper : τ → Prop} {grant : Word → Grant ι ε}
    (serves : module.Serves look (fun _ => []) proper grant) :
    module.onFirst.Serves (fun state => look state.1) Prod.snd (fun state => proper state.1)
      grant := by
  refine ⟨fun addr included => ?_, fun addr included => ?_⟩
  · obtain ⟨callback, callback_eq, reads⟩ := serves.read addr included
    refine ⟨_, Option.mem_map_of_mem _ callback_eq, fun left state properState => ?_⟩
    obtain ⟨after, properAfter, look_eq, noted_eq, answered⟩ := reads left state.1 properState
    refine ⟨(after, state.2), properAfter, look_eq, ?_, congrArg _ answered⟩
    rw [← List.nil_append (Grant.notes _ _), ← noted_eq, List.append_nil]
  · obtain ⟨callback, callback_eq, writes⟩ := serves.write addr included
    refine ⟨_, Option.mem_map_of_mem _ callback_eq, fun value state properState => ?_⟩
    obtain ⟨after, properAfter, look_eq, noted_eq, taken⟩ := writes value state.1 properState
    refine ⟨(after, state.2), properAfter, look_eq, ?_, congrArg _ taken⟩
    rw [← List.nil_append (Grant.notes _ _), ← noted_eq, List.append_nil]

end MembusModule

namespace NesMockup

/-! ## The registers -/

/-- `ppu_register_names`. -/
def ppuRegisterNames : List String :=
  ["PPUCTRL", "PPUMASK", "PPUSTATUS", "OAMADDR", "OAMDATA", "PPUSCROLL", "PPUADDR", "PPUDATA",
    "OAMDMA"]

/-- `apu_register_names`. -/
def apuRegisterNames : List String :=
  ["PULSE1_DDLCVVVV", "PULSE1_EPPPNSS", "PULSE1_TTTTTTTT", "PULSE1_LLLLLTTT",
    "PULSE2_DDLCVVVV", "PULSE2_EPPPNSS", "PULSE2_TTTTTTTT", "PULSE2_LLLLLTTT",
    "TRIANGLE_CRRRRRRR", "TRIANGLE_UNUNSED", "TRIANGLE_TTTTTTTT", "TRIANGLE_LLLLLTTT",
    "NOISE_--LCVVVV", "NOISE_UNUSED", "NOISE_L---PPPP", "NOISE_LLLLL---",
    "DMC_IL--RRRR", "DMC_-DDDDDDD", "DMC_AAAAAAAA", "DMC_LLLLLLLL",
    "", "STATUS_---DNT21", "", "FRAMECOUNTER_MI------", "", "", "", "", "", "", "", ""]

/-- An address within a mask is an index of a longer table. -/
theorem index_lt (addr mask : Word) {names : List String} (longer : mask.toNat < names.length) :
    (addr &&& mask).toNat < names.length := by
  rw [BitVec.toNat_and]
  exact Nat.lt_of_le_of_lt Nat.and_le_right longer

/-- What the PPU registers print of an access. -/
def ppuLine (operation : Operation) (addr : Word) : String :=
  let name := ppuRegisterNames.get ⟨(addr &&& 0x0007).toNat, index_lt addr 0x0007 (by decide)⟩
  match operation with
  | .read => "    [PPU] __membus_module_PPU_registers_read_addr: READ \"" ++ name ++ "\"\n"
  | .write _ => "    [PPU] __membus_module_PPU_registers_write_addr: WRITE \"" ++ name ++ "\"\n"

/-- What the APU registers print of an access. -/
def apuLine (operation : Operation) (addr : Word) : String :=
  let name := apuRegisterNames.get ⟨(addr &&& 0x001F).toNat, index_lt addr 0x001F (by decide)⟩
  match operation with
  | .read => "    [APU] __membus_module_APU_registers_read_addr: READ \"" ++ name ++ "\"\n"
  | .write _ => "    [APU] __membus_module_APU_registers_write_addr: WRITE \"" ++ name ++ "\"\n"

/-- The storage module. -/
def kinds (_ : Unit) : StorageKind := .paged 0x00 0x08

/-- The bytes of the modules and what has been printed. -/
abbrev Devices := Bus.Contents kinds × List String

/-- A module of registers: it accepts every access, prints it, and stores nothing. -/
def registers (addrRange : MemoryAddrRange) (line : Operation → Word → String) :
    MembusModule Devices where
  addrRange
  readCallback := some fun addr value devices =>
    some (.accepted, value.getD 0, devices.1, devices.2 ++ [line .read addr])
  writeCallback := some fun addr value devices =>
    some (.accepted, devices.1, devices.2 ++ [line (.write value) addr])

/-- `membus_module_PPU_registers_alloc`. -/
def ppuRegisters : MembusModule Devices :=
  registers { addrLo := 0x2000, addrLen := 0x2000 } ppuLine

/-- `membus_module_APU_registers_alloc`. -/
def apuRegisters : MembusModule Devices :=
  registers { addrLo := 0x4000, addrLen := 0x0020 } apuLine

/-! ## The bus -/

/-- The modules of `main`. -/
inductive Module
  | base2K
  | base2KMirrors (index : Fin 3)
  | ppuRegisters
  | apuRegisters
  deriving DecidableEq, Repr

/-- The base 2 KiB. -/
def base2K : MembusModule Devices := (Bus.storageModule kinds ()).onFirst

/-- The addresses of the mirrors. -/
def mirrorBaseAddr : Fin 3 → Word
  | 0 => 0x0800
  | 1 => 0x1000
  | 2 => 0x1800

theorem mirror_isSome : ∀ index, (base2K.mirror (mirrorBaseAddr index)).isSome = true
  | 0 => rfl
  | 1 => rfl
  | 2 => rfl

/-- What `main` allocates for the modules. -/
def modules : Module → MembusModule Devices
  | .base2K => base2K
  | .base2KMirrors index => (base2K.mirror (mirrorBaseAddr index)).get (mirror_isSome index)
  | .ppuRegisters => ppuRegisters
  | .apuRegisters => apuRegisters

/-- The bus of `main`, in the order of its registrations. -/
def nesMemory (uninitialised : MembusCache) : Bus Module :=
  [.base2K, .base2KMirrors 0, .base2KMirrors 1, .base2KMirrors 2, .ppuRegisters,
    .apuRegisters].foldl
    (fun bus module => (bus.registerModule (Bus.firsts modules)
      { tier := 0, module, allocations := { node := true, tier := true } }).2)
    (.alloc uninitialised fun _ => 0)

/-- What the modules grant. -/
def grants (module : Module) (addr : Word) : Grant (Unit × Word) String :=
  match module with
  | .base2K => .cell ((), addr) true true
  | .base2KMirrors index => .cell ((), addr - mirrorBaseAddr index + 0x0000) true true
  | .ppuRegisters => .port (ppuLine · addr)
  | .apuRegisters => .port (apuLine · addr)

/-- Where an address leads: below `$2000` to one of 2048 cells, and elsewhere to the bytes of the
vectors only. -/
def site (addr : Word) : Option (Unit × Word ⊕ Word) :=
  if addr < 0x2000 then some (.inl ((), addr &&& 0x07FF)) else Bus.vectorSite addr

/-- The purpose of the bus. -/
def console : AddressSpace Word (Unit × Word ⊕ Word) where
  readSite := site
  writeSite := site

/-- What is printed of an access: one line for every access to a register. -/
def lineOf (given : Bus.Transaction) : Option String :=
  if 0x2000 ≤ given.addr ∧ given.addr < 0x4000 then some (ppuLine given.operation given.addr)
  else if 0x4000 ≤ given.addr ∧ given.addr < 0x4020 then some (apuLine given.operation given.addr)
  else none

theorem ordinary_nesMemory (uninitialised : MembusCache) :
    (nesMemory uninitialised).ordinary =
      [.base2K, .base2KMirrors 0, .base2KMirrors 1, .base2KMirrors 2, .ppuRegisters,
        .apuRegisters] := by
  rfl

/-- The ranges of the modules. -/
def addrRange : Module → MemoryAddrRange
  | .base2K => { addrLo := 0x0000, addrLen := 0x0800 }
  | .base2KMirrors index => { addrLo := mirrorBaseAddr index, addrLen := 0x0800 }
  | .ppuRegisters => { addrLo := 0x2000, addrLen := 0x2000 }
  | .apuRegisters => { addrLo := 0x4000, addrLen := 0x0020 }

theorem addrRange_eq : ∀ module, (modules module).addrRange = addrRange module
  | .base2K | .base2KMirrors 0 | .base2KMirrors 1 | .base2KMirrors 2 | .ppuRegisters
  | .apuRegisters => rfl

/-- Registers serve a port. -/
theorem serves_registers (addrRange : MemoryAddrRange) (line : Operation → Word → String)
    (modes : Unit → BitVec 32) :
    (registers addrRange line).Serves (fun devices => Bus.heldByte devices.1) Prod.snd
      (fun devices => Bus.InModes modes devices.1) fun addr => .port (line · addr) :=
  ⟨fun addr _ => ⟨_, rfl, fun _ devices proper =>
      ⟨(devices.1, devices.2 ++ [line .read addr]), proper, rfl, rfl, rfl⟩⟩,
    fun addr _ => ⟨_, rfl, fun value devices proper =>
      ⟨(devices.1, devices.2 ++ [line (.write value) addr]), proper, rfl, rfl, rfl⟩⟩⟩

/-- The modules serve what they grant. -/
theorem serves_modules : ∀ module, (modules module).Serves
    (fun devices => Bus.heldByte devices.1) Prod.snd
    (fun devices => Bus.InModes (fun _ => moduleModeRw) devices.1) (grants module) := by
  have base : base2K.Serves (fun devices => Bus.heldByte devices.1) Prod.snd
      (fun devices => Bus.InModes (fun _ => moduleModeRw) devices.1) (grants .base2K) :=
    (Bus.serves_storageModule ()).onFirst
  intro module
  cases module with
  | base2K => exact base
  | base2KMirrors index =>
      exact base.mirror (by decide) (Option.some_get (mirror_isSome index)).symm
  | ppuRegisters => exact serves_registers _ _ _
  | apuRegisters => exact serves_registers _ _ _

/-- The module that an address reaches. -/
def owner (addr : Word) : Option Module :=
  if addr < 0x0800 then some .base2K
  else if addr < 0x1000 then some (.base2KMirrors 0)
  else if addr < 0x1800 then some (.base2KMirrors 1)
  else if addr < 0x2000 then some (.base2KMirrors 2)
  else if addr < 0x4000 then some .ppuRegisters
  else if addr < 0x4020 then some .apuRegisters
  else none

theorem doesInclude_iff (addr : Word) (module : Module) :
    (modules module).addrRange.doesInclude addr = true ↔ owner addr = some module := by
  have within : (modules module).addrRange.doesInclude addr = true ↔
      (addrRange module).addrLo.toNat ≤ addr.toNat ∧
        addr.toNat < (addrRange module).addrLo.toNat + (addrRange module).addrLen.toNat := by
    have nonempty : ((addrRange module).addrLen != 0) = true := by
      cases module <;> rfl
    rw [addrRange_eq, MemoryAddrRange.doesInclude, nonempty, Bool.true_and, Bool.and_eq_true,
      decide_eq_true_iff, decide_eq_true_iff, BitVec.le_def]
  rw [within]
  unfold owner
  cases module with
  | base2K =>
      change 0 ≤ addr.toNat ∧ addr.toNat < 0 + 0x0800 ↔ _
      split_ifs <;> simp <;> bv_omega
  | base2KMirrors index =>
      change (mirrorBaseAddr index).toNat ≤ addr.toNat ∧
        addr.toNat < (mirrorBaseAddr index).toNat + 0x0800 ↔ _
      obtain rfl | rfl | rfl : index = 0 ∨ index = 1 ∨ index = 2 := by omega
      · change 0x0800 ≤ addr.toNat ∧ addr.toNat < 0x0800 + 0x0800 ↔ _
        split_ifs <;> simp <;> bv_omega
      · change 0x1000 ≤ addr.toNat ∧ addr.toNat < 0x1000 + 0x0800 ↔ _
        split_ifs <;> simp <;> bv_omega
      · change 0x1800 ≤ addr.toNat ∧ addr.toNat < 0x1800 + 0x0800 ↔ _
        split_ifs <;> simp <;> bv_omega
  | ppuRegisters =>
      change 0x2000 ≤ addr.toNat ∧ addr.toNat < 0x2000 + 0x2000 ↔ _
      split_ifs <;> simp <;> bv_omega
  | apuRegisters =>
      change 0x4000 ≤ addr.toNat ∧ addr.toNat < 0x4000 + 0x0020 ↔ _
      split_ifs <;> simp <;> bv_omega

theorem find_owner (addr : Word) :
    [.base2K, .base2KMirrors 0, .base2KMirrors 1, .base2KMirrors 2, .ppuRegisters,
      .apuRegisters].find? (fun module => (modules module).addrRange.doesInclude addr) =
        owner addr := by
  have found : (fun module => (modules module).addrRange.doesInclude addr) =
      fun module => decide (owner addr = some module) := by
    funext module
    rw [Bool.eq_iff_iff, doesInclude_iff, decide_eq_true_iff]
  rw [found]
  cases owner addr with
  | none => rfl
  | some module =>
    cases module with
    | base2KMirrors index =>
        obtain rfl | rfl | rfl : index = 0 ∨ index = 1 ∨ index = 2 := by omega
        all_goals rfl
    | base2K => rfl
    | ppuRegisters => rfl
    | apuRegisters => rfl

/-- What the bus grants. -/
theorem grantAt_nesMemory (uninitialised : MembusCache) (addr : Word) :
    (nesMemory uninitialised).grantAt modules grants addr =
      if addr < 0x2000 then some (.cell ((), addr &&& 0x07FF) true true)
      else if addr < 0x4000 then some (.port (ppuLine · addr))
      else if addr < 0x4020 then some (.port (apuLine · addr)) else none := by
  have masked : (addr &&& 0x07FF).toNat = addr.toNat % 0x0800 :=
    (BitVec.toNat_and ..).trans (Nat.and_two_pow_sub_one_eq_mod addr.toNat 11)
  rw [Bus.grantAt, ordinary_nesMemory, find_owner]
  -- the mask takes an address to the cell that its mirror shows
  have shown : ∀ base : Word, base.toNat % 0x0800 = 0 → base.toNat ≤ addr.toNat →
      addr.toNat < base.toNat + 0x0800 → addr - base + 0x0000 = addr &&& 0x07FF := by
    intro base aligned above below
    refine BitVec.eq_of_toNat_eq ?_
    rw [masked]
    bv_omega
  unfold owner
  by_cases memory : addr < 0x2000
  · rw [if_pos memory]
    split_ifs with first second third
    · have cell_eq := shown 0x0000 rfl (Nat.zero_le _) first
      simp only [Option.map_some, grants, ← cell_eq]
      simp
    · exact congrArg (fun cell => some (Grant.cell ((), cell) true true))
        (shown 0x0800 rfl (BitVec.not_lt.mp first) second)
    · exact congrArg (fun cell => some (Grant.cell ((), cell) true true))
        (shown 0x1000 rfl (BitVec.not_lt.mp second) third)
    · exact congrArg (fun cell => some (Grant.cell ((), cell) true true))
        (shown 0x1800 rfl (BitVec.not_lt.mp third) memory)
  · rw [if_neg memory, if_neg (by bv_omega), if_neg (by bv_omega), if_neg (by bv_omega),
      if_neg memory]
    split_ifs <;> rfl

theorem vectorSite_of_lt {addr : Word} (below : addr < 0x4020) :
    (Bus.vectorSite addr : Option (Unit × Word ⊕ Word)) = none := by
  refine if_neg fun isVector => ?_
  unfold Bus.IsVector memoryAddrNMIVector at isVector
  bv_omega

/-- The bus is the console. -/
theorem space_nesMemory (uninitialised : MembusCache) :
    (nesMemory uninitialised).space modules grants = console := by
  have sites : ∀ addr,
      Bus.readSiteOf addr ((nesMemory uninitialised).grantAt modules grants addr) = site addr ∧
        Bus.writeSiteOf addr ((nesMemory uninitialised).grantAt modules grants addr) =
          site addr := by
    intro addr
    rw [grantAt_nesMemory, site]
    split_ifs with memory ppu apu
    · exact ⟨rfl, rfl⟩
    · have none_eq := vectorSite_of_lt (show addr < 0x4020 by bv_omega)
      exact ⟨none_eq.symm, none_eq.symm⟩
    · have none_eq := vectorSite_of_lt apu
      exact ⟨none_eq.symm, none_eq.symm⟩
    · exact ⟨rfl, rfl⟩
  rw [Bus.space, console, AddressSpace.mk.injEq]
  exact ⟨funext fun addr => (sites addr).1, funext fun addr => (sites addr).2⟩

/-- The registers print what the console prints. -/
theorem notesOf_nesMemory (uninitialised : MembusCache) (given : List Bus.Transaction) :
    (nesMemory uninitialised).notesOf modules grants given = given.filterMap lineOf := by
  rw [List.filterMap_eq_flatMap_toList]
  refine congrArg (given.flatMap ·) (funext fun transaction => ?_)
  rw [Bus.notesAt, grantAt_nesMemory, lineOf]
  split_ifs <;> first | rfl | bv_omega

/-- On the bus of the mockup every transaction completes; after any of them a read below `$2000`
returns the byte last written to any of the four addresses of its cell, or what the cell has held,
a read of a vector returns the byte last written there, every other read returns zero, and the
registers have printed one line for each access to them, in order, and nothing else. -/
theorem readAddr_console (uninitialised : MembusCache) {devices : Devices}
    (readWrite : Bus.InModes (fun _ => moduleModeRw) devices.1) (given : List Bus.Transaction)
    (addr : Word) :
    ∃ after last,
      (Bus.transacting modules).run (.ok (nesMemory uninitialised, devices)) given =
        .ok (after, last) ∧
      last.2 = devices.2 ++ given.filterMap lineOf ∧ ∃ final latest,
        after.readAddr modules addr last =
          .ok ((console.readSite addr).elim 0 fun site =>
            (console.lastAt site (Bus.writesOf given)).getD
              (Bus.bytesOf (fun devices => Bus.heldByte devices.1) (nesMemory uninitialised)
                devices site), final, latest) := by
  have configured : Bus.Configured modules (nesMemory uninitialised) :=
    .register _ (.register _ (.register _ (.register _ (.register _ (.register _ (.alloc _ _))))))
  have maps : (nesMemory uninitialised).Maps modules grants
      (fun devices => Bus.heldByte devices.1) Prod.snd
      (fun devices => Bus.InModes (fun _ => moduleModeRw) devices.1) devices :=
    { sorted := configured.sorted
      noPreOp := rfl
      noPostOp := rfl
      serves := fun module _ => serves_modules module
      proper := readWrite }
  have reads := maps.reads given addr
  rwa [space_nesMemory, notesOf_nesMemory] at reads

/-- Two of the writes of `main`, and one of its reads. -/
theorem readAddr_console_main :
    ∃ after last,
      (Bus.transacting modules).run
          (.ok (nesMemory .blank, (fun _ => ({ mode := moduleModeRw, pages := fun _ _ => 0 }
            : MembusModulePaged)), []))
          [{ operation := .write 0xFF, addr := 0x2001 },
            { operation := .write 0xED, addr := 0x17FF }] = .ok (after, last) ∧
        last.2 =
          ["    [PPU] __membus_module_PPU_registers_write_addr: WRITE \"PPUMASK\"\n"] ∧
        ∃ final latest, after.readAddr modules 0x07FF last = .ok (0xED, final, latest) :=
  readAddr_console .blank (fun _ => rfl) _ 0x07FF

end NesMockup

end System6502
