import JuttaProto.Bitfield
import JuttaProto.Connecting

namespace JuttaProto
open Bitfield Run
set_option autoImplicit true

/-- The date in the lower bits of a word: five for the day, four for the month and seven for
the year. -/
def YearMonthDay.unpack (date : UInt16) : YearMonthDay where
  year := ((date &&& 65024) >>> 9) + 1990
  month := ((date &&& 480) >>> 5).toUInt8
  day := (date &&& 31).toUInt8

def YearMonthDay.pack (d : YearMonthDay) : UInt16 :=
  ((d.year - 1990) <<< 9) ||| (d.month.toUInt16 <<< 5) ||| d.day.toUInt16

structure YearMonthDay.Packable (d : YearMonthDay) : Prop where
  year_ge : 1990 ≤ d.year.toNat
  year_le : d.year.toNat ≤ 2117
  month_le : d.month.toNat ≤ 15
  day_le : d.day.toNat ≤ 31

theorem toNat_year (date : UInt16) :
    (YearMonthDay.unpack date).year.toNat = date.toNat / 2 ^ 9 + 1990 := by
  have hlt := date.toNat_lt
  have hf : ((date &&& 65024) >>> 9).toNat = date.toNat / 2 ^ 9 % 2 ^ 7 :=
    toNat_field date rfl (by decide)
  rw [YearMonthDay.unpack, UInt16.toNat_add, hf]
  simp only [UInt16.reduceToNat]
  omega

theorem toNat_month (date : UInt16) :
    (YearMonthDay.unpack date).month.toNat = date.toNat / 2 ^ 5 % 2 ^ 4 := by
  have hf : ((date &&& 480) >>> 5).toNat = date.toNat / 2 ^ 5 % 2 ^ 4 :=
    toNat_field date rfl (by decide)
  rw [YearMonthDay.unpack, Bitfield.toNat_low, hf]
  omega

theorem toNat_day (date : UInt16) :
    (YearMonthDay.unpack date).day.toNat = date.toNat % 2 ^ 5 := by
  have hf : (date &&& 31).toNat = date.toNat % 2 ^ 5 := by
    rw [UInt16.toNat_and]
    exact Nat.and_two_pow_sub_one_eq_mod date.toNat 5
  rw [YearMonthDay.unpack, Bitfield.toNat_low, hf]
  omega

theorem unpack_packable (date : UInt16) : (YearMonthDay.unpack date).Packable := by
  have hlt := date.toNat_lt
  refine ⟨?_, ?_, ?_, ?_⟩
  · rw [toNat_year]
    omega
  · rw [toNat_year]
    omega
  · rw [toNat_month]
    omega
  · rw [toNat_day]
    omega

theorem toNat_pack {d : YearMonthDay} (h : d.Packable) :
    d.pack.toNat = (d.year.toNat - 1990) * 2 ^ 9 + (d.month.toNat * 2 ^ 5 + d.day.toNat) := by
  have hge := h.year_ge
  have hle := h.year_le
  have hmonth := h.month_le
  have hday := h.day_le
  have hy : (d.year - 1990).toNat = d.year.toNat - 1990 := by
    apply UInt16.toNat_sub_of_le
    exact UInt16.le_iff_toNat_le.2 hge
  have hlow : ((d.month.toUInt16 <<< 5) ||| d.day.toUInt16).toNat =
      d.month.toNat * 2 ^ 5 + d.day.toNat :=
    toNat_place rfl (by rw [UInt8.toNat_toUInt16]; omega) (by rw [UInt8.toNat_toUInt16]; omega)
  rw [YearMonthDay.pack, UInt16.or_assoc, ← hlow, ← hy]
  exact toNat_place rfl (by rw [hy]; omega) (by rw [hlow]; omega)

theorem pack_unpack (date : UInt16) : (YearMonthDay.unpack date).pack = date := by
  apply UInt16.toNat_inj.1
  rw [toNat_pack (unpack_packable date), toNat_year, toNat_month, toNat_day]
  omega

theorem unpack_pack {d : YearMonthDay} (h : d.Packable) : YearMonthDay.unpack d.pack = d := by
  have hge := h.year_ge
  have hle := h.year_le
  have hmonth := h.month_le
  have hday := h.day_le
  have hyear : (YearMonthDay.unpack d.pack).year = d.year := by
    apply UInt16.toNat_inj.1
    rw [toNat_year, toNat_pack h]
    omega
  have hmonth : (YearMonthDay.unpack d.pack).month = d.month := by
    apply UInt8.toNat_inj.1
    rw [toNat_month, toNat_pack h]
    omega
  have hday : (YearMonthDay.unpack d.pack).day = d.day := by
    apply UInt8.toNat_inj.1
    rw [toNat_day, toNat_pack h]
    omega
  obtain ⟨year, month, day⟩ := d
  rw [YearMonthDay.unpack, YearMonthDay.mk.injEq]
  exact ⟨hyear, hmonth, hday⟩

/-- The documented layout of manufacturer data. The byte at offset 3 is not used. -/
def ManufacturerData.encode (m : ManufacturerData) (unused : UInt8) : Bytes :=
  [m.key, m.bfMajVer, m.bfMinVer, unused] ++ littleEndian m.articleNumber ++
    littleEndian m.machineNumber ++ littleEndian m.serialNumber ++
    littleEndian m.machineProdDate.pack ++ littleEndian m.machineProdDateUCHI.pack ++
    [m.unusedSecond, m.statusBits]

structure ManufacturerData.Encodable (m : ManufacturerData) : Prop where
  machineProdDate : m.machineProdDate.Packable
  machineProdDateUCHI : m.machineProdDateUCHI.Packable

theorem read_man_data_bytes (b₀ b₁ b₂ b₃ b₄ b₅ b₆ b₇ b₈ b₉ b₁₀ b₁₁ b₁₂ b₁₃ b₁₄ b₁₅ : UInt8)
    (rest : Bytes) :
    read_man_data (b₀ :: b₁ :: b₂ :: b₃ :: b₄ :: b₅ :: b₆ :: b₇ :: b₈ :: b₉ :: b₁₀ :: b₁₁ ::
        b₁₂ :: b₁₃ :: b₁₄ :: b₁₅ :: rest) =
      .ok ⟨b₀, b₁, b₂, word b₄ b₅, word b₆ b₇, word b₈ b₉, .unpack (word b₁₀ b₁₁),
        .unpack (word b₁₂ b₁₃), b₁₄, b₁₅⟩ := rfl

/-- The fields cover all bytes but the unused one, so nothing else is lost. -/
theorem encode_read_man_data (h : 16 ≤ data.length) :
    ∃ manData, read_man_data data = .ok manData ∧ manData.Encodable ∧
      ∀ unused, manData.encode unused = (data.take 16).set 3 unused := by
  match data, h with
  | b₀ :: b₁ :: b₂ :: b₃ :: b₄ :: b₅ :: b₆ :: b₇ :: b₈ :: b₉ :: b₁₀ :: b₁₁ :: b₁₂ :: b₁₃ ::
      b₁₄ :: b₁₅ :: rest, _ =>
    refine ⟨_, read_man_data_bytes b₀ b₁ b₂ b₃ b₄ b₅ b₆ b₇ b₈ b₉ b₁₀ b₁₁ b₁₂ b₁₃ b₁₄ b₁₅ rest,
      ⟨unpack_packable _, unpack_packable _⟩, fun unused => ?_⟩
    simp only [ManufacturerData.encode, pack_unpack, littleEndian_word]
    rfl

theorem read_man_data_encode {m : ManufacturerData} (h : m.Encodable) (unused : UInt8)
    (rest : Bytes) : read_man_data (m.encode unused ++ rest) = .ok m := by
  have hread := read_man_data_bytes m.key m.bfMajVer m.bfMinVer unused
    m.articleNumber.toUInt8 (m.articleNumber >>> 8).toUInt8
    m.machineNumber.toUInt8 (m.machineNumber >>> 8).toUInt8
    m.serialNumber.toUInt8 (m.serialNumber >>> 8).toUInt8
    m.machineProdDate.pack.toUInt8 (m.machineProdDate.pack >>> 8).toUInt8
    m.machineProdDateUCHI.pack.toUInt8 (m.machineProdDateUCHI.pack >>> 8).toUInt8
    m.unusedSecond m.statusBits rest
  simp only [word_littleEndian, unpack_pack h.machineProdDate,
    unpack_pack h.machineProdDateUCHI] at hread
  exact hread

theorem parse_man_data_manData (hr : read_man_data data = .ok manData)
    (hl : MachineLoads w.maker.machines data doc) :
    ∃ w', parse_man_data data doc w = .ok w' ∧ w'.maker.manData = manData := by
  obtain ⟨w', h⟩ := parse_man_data_loads hl
  refine ⟨w', h, ?_⟩
  rw [parse_man_data, hr, ok_bind] at h
  simp only at h
  split at h
  · cases h
  · obtain ⟨joe, _, h⟩ := bind_ok h
    cases h
    rfl

/-- Manufacturer data are encoded again as the bytes that they have been read from, except for
the unused one, and what has been encoded is read as it was. The coffee maker keeps what is read
when the machine is supported and its file can be loaded. -/
theorem man_data_round_trip :
    (∀ data, 16 ≤ data.length → ∃ manData, read_man_data data = .ok manData ∧
      manData.Encodable ∧ (∀ unused, manData.encode unused = (data.take 16).set 3 unused) ∧
      ∀ doc w, MachineLoads w.maker.machines data doc →
        ∃ w', parse_man_data data doc w = .ok w' ∧ w'.maker.manData = manData) ∧
    ∀ manData : ManufacturerData, manData.Encodable → ∀ unused rest,
      read_man_data (manData.encode unused ++ rest) = .ok manData ∧
      ∀ doc w, MachineLoads w.maker.machines (manData.encode unused ++ rest) doc →
        ∃ w', parse_man_data (manData.encode unused ++ rest) doc w = .ok w' ∧
          w'.maker.manData = manData := by
  constructor
  · intro data h
    obtain ⟨manData, hr, he, henc⟩ := encode_read_man_data h
    exact ⟨manData, hr, he, henc, fun doc w hl => parse_man_data_manData hr hl⟩
  · intro manData he unused rest
    have hr := read_man_data_encode he unused rest
    exact ⟨hr, fun doc w hl => parse_man_data_manData hr hl⟩

def exampleManData : Bytes :=
  [42, 1, 2, 3, 0xEC, 0x3A, 4, 5, 6, 7, 0x85, 0x3E, 0x45, 0x3F, 8, 9]

theorem man_data_round_trip_example :
    ∃ manData, read_man_data exampleManData = .ok manData ∧
      manData.encode 3 = exampleManData ∧
      (∃ w', parse_man_data exampleManData exampleDoc (World.fresh [exampleJoe.machine]) = .ok w' ∧
        w'.maker.manData = manData) ∧
      read_man_data (manData.encode 0 ++ [1]) = .ok manData ∧
      ∃ w', parse_man_data (manData.encode 0 ++ [1]) exampleDoc
          (World.fresh [exampleJoe.machine]) = .ok w' ∧ w'.maker.manData = manData := by
  obtain ⟨hread, hencode⟩ := man_data_round_trip
  obtain ⟨manData, hr, he, hbytes, hparse⟩ := hread exampleManData (by decide)
  obtain ⟨hr', hparse'⟩ := hencode manData he 0 [1]
  have hloads : MachineLoads [exampleJoe.machine] exampleManData exampleDoc :=
    ⟨manData, exampleJoe.machine, exampleJoe, hr, by cases hr; decide, by decide +kernel⟩
  have hloads' : MachineLoads [exampleJoe.machine] (manData.encode 0 ++ [1]) exampleDoc :=
    ⟨manData, exampleJoe.machine, exampleJoe, hr', by cases hr; decide, by decide +kernel⟩
  exact ⟨manData, hr, hbytes 3, hparse _ _ hloads, hr', hparse' _ _ hloads'⟩

end JuttaProto
