/-
# Names of ELF section types

Section types have names: those every machine has, and those of one machine. A type without a
name keeps its number.
-/
import SigScan.Image.Elf.Code

namespace SigScan.Elf

/-- The section types of every machine. -/
def commonSectionTypes : List (Nat × String) :=
  [(0, "SHT_NULL"), (1, "SHT_PROGBITS"), (2, "SHT_SYMTAB"), (3, "SHT_STRTAB"), (4, "SHT_RELA"),
    (5, "SHT_HASH"), (6, "SHT_DYNAMIC"), (7, "SHT_NOTE"), (8, "SHT_NOBITS"), (9, "SHT_REL"),
    (10, "SHT_SHLIB"), (11, "SHT_DYNSYM"), (14, "SHT_INIT_ARRAY"), (15, "SHT_FINI_ARRAY"),
    (16, "SHT_PREINIT_ARRAY"), (17, "SHT_GROUP"), (18, "SHT_SYMTAB_SHNDX"), (19, "SHT_RELR"),
    (20, "SHT_NUM"), (0x60000000, "SHT_LOOS"), (0x6FFFFFF3, "SHT_SUNW_LDYNSYM"),
    (0x6FFFFFF5, "SHT_GNU_ATTRIBUTES"), (0x6FFFFFF6, "SHT_GNU_HASH"),
    (0x6FFFFFF7, "SHT_GNU_LIBLIST"), (0x6FFFFFFC, "SHT_SUNW_syminfo"),
    (0x6FFFFFFD, "SHT_GNU_verdef"), (0x6FFFFFFE, "SHT_GNU_verneed"),
    (0x6FFFFFFF, "SHT_GNU_versym"), (0x80000000, "SHT_LOUSER"), (0xFFFFFFFF, "SHT_HIUSER")]

/-- The machine number of MIPS. -/
def machineMips : Nat := 8

/-- The machine number of ARM. -/
def machineArm : Nat := 40

/-- The machine number of x86-64. -/
def machineX64 : Nat := 62

/-- The machine number of AArch64. -/
def machineAArch64 : Nat := 183

/-- The machine number of RISC-V. -/
def machineRiscV : Nat := 243

/-- The section types of one machine. -/
def machineSectionTypes (machine : Nat) : List (Nat × String) :=
  if machine = machineArm then
    [(0x70000001, "SHT_ARM_EXIDX"), (0x70000002, "SHT_ARM_PREEMPTMAP"),
      (0x70000003, "SHT_ARM_ATTRIBUTES"), (0x70000004, "SHT_ARM_DEBUGOVERLAY")]
  else if machine = machineX64 then [(0x70000001, "SHT_AMD64_UNWIND")]
  else if machine = machineMips then
    [(0x70000000, "SHT_MIPS_LIBLIST"), (0x70000005, "SHT_MIPS_DEBUG"),
      (0x70000006, "SHT_MIPS_REGINFO"), (0x70000007, "SHT_MIPS_PACKAGE"),
      (0x70000008, "SHT_MIPS_PACKSYM"), (0x70000009, "SHT_MIPS_RELD"),
      (0x7000000B, "SHT_MIPS_IFACE"), (0x7000000C, "SHT_MIPS_CONTENT"),
      (0x7000000D, "SHT_MIPS_OPTIONS"), (0x70000010, "SHT_MIPS_SHDR"),
      (0x70000011, "SHT_MIPS_FDESC"), (0x70000012, "SHT_MIPS_EXTSYM"),
      (0x70000013, "SHT_MIPS_DENSE"), (0x70000014, "SHT_MIPS_PDESC"),
      (0x70000015, "SHT_MIPS_LOCSYM"), (0x70000016, "SHT_MIPS_AUXSYM"),
      (0x70000017, "SHT_MIPS_OPTSYM"), (0x70000018, "SHT_MIPS_LOCSTR"),
      (0x70000019, "SHT_MIPS_LINE"), (0x7000001A, "SHT_MIPS_RFDESC"),
      (0x7000001B, "SHT_MIPS_DELTASYM"), (0x7000001C, "SHT_MIPS_DELTAINST"),
      (0x7000001D, "SHT_MIPS_DELTACLASS"), (0x7000001E, "SHT_MIPS_DWARF"),
      (0x7000001F, "SHT_MIPS_DELTADECL"), (0x70000020, "SHT_MIPS_SYMBOL_LIB"),
      (0x70000021, "SHT_MIPS_EVENTS"), (0x70000022, "SHT_MIPS_TRANSLATE"),
      (0x70000023, "SHT_MIPS_PIXIE"), (0x70000024, "SHT_MIPS_XLATE"),
      (0x70000025, "SHT_MIPS_XLATE_DEBUG"), (0x70000026, "SHT_MIPS_WHIRL"),
      (0x70000027, "SHT_MIPS_EH_REGION"), (0x70000028, "SHT_MIPS_XLATE_OLD"),
      (0x70000029, "SHT_MIPS_PDR_EXCEPTION"), (0x7000002A, "SHT_MIPS_ABIFLAGS")]
  else if machine = machineAArch64 then [(0x70000003, "SHT_AARCH64_ATTRIBUTES")]
  else if machine = machineRiscV then [(0x70000003, "SHT_RISCV_ATTRIBUTES")]
  else []

/-- The type of a section on a machine. -/
def sectionType (machine number : Nat) : EntryType :=
  match (machineSectionTypes machine ++ commonSectionTypes).lookup number with
  | some name => .named name
  | none => .numbered number

/-- The type of a section in messages. -/
def EntryType.text : EntryType → String
  | .named name => name
  | .numbered value => toString value

end SigScan.Elf
