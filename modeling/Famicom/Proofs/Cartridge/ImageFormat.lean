import Mathlib.Order.WellFounded
import Famicom.Board.WordSize
import Famicom.Cartridge.Basic
import Famicom.Proofs.Transition

/-!
# The format of images

An image becomes a cartridge exactly if it meets seven demands. They have an order, because the
later ones make sense only for an image that meets the earlier ones, and an image is refused for the
first one that it does not meet. The memory of the cartridge is cut out of the image, never past its
end, and what follows the last part is not read.

## Main definitions

* `Image.declaredHeader`, `Image.declaredContainer`, `Image.declaredExtent` — what an image says
  of itself
* `Image.prgStart`, `Image.prgEnd`, `Image.chrEnd` — where its parts lie
* `Image.Demand`, `Image.IsFirstUnmet` — the demands, and the first that an image does not meet
* `Cartridge.IsMadeOf` — the cartridge of an image

## Main results

* `Image.declaredContainer_eq_halfPrg_iff` — which images count program memory in units of 8 KiB
* `Image.parse_eq_error`, `Image.exists_parse` — an image is refused, or taken apart
* `Cartridge.ofImage_meets_format` — the cartridges of images, and the refusals
-/

namespace Famicom

namespace Image

/-! ### What an image declares -/

/-- The header that the first bytes of an image stand for, whatever they are. -/
def declaredHeader (image : ByteArray) : Header where
  prgChunks := byteAt image 4
  chrChunks := byteAt image 5
  mapper1 := byteAt image 6
  mapper2 := byteAt image 7
  prgRamSize := byteAt image 8
  tvSystem1 := byteAt image 9
  tvSystem2 := byteAt image 10
  reserved := .ofFn fun i => byteAt image (11 + i)

/-- The flavour. -/
def declaredContainer (image : ByteArray) : Container :=
  (declaredHeader image).container image.size

/-- The memory that is declared. -/
def declaredExtent (image : ByteArray) : Header.Extent :=
  (declaredHeader image).extent (declaredContainer image)

/-- Where program memory begins: behind the header and, if there is one, a trainer. -/
def prgStart (image : ByteArray) : Nat :=
  16 + if byteAt image 6 &&& 0x04 = 0 then 0 else 512

/-- Where program memory ends and pattern memory begins. -/
def prgEnd (image : ByteArray) : Nat :=
  prgStart image + (declaredExtent image).prgSize

/-- Where pattern memory ends. Images of the newest flavour may bring as much again as they
declare. -/
def chrEnd (image : ByteArray) : Nat :=
  let declared := 8192 * (declaredExtent image).chrBanks
  prgEnd image +
    if declaredContainer image = .nes2 then min (2 * declared) (image.size - prgEnd image)
    else declared

/-! ### Demands -/

/-- What an image has to be, in the order in which it is looked at. -/
inductive Demand where
  /-- There is room for a header. -/
  | header
  /-- The header begins with the mark of the format. -/
  | tag
  /-- There is room for the trainer. -/
  | trainer
  /-- Program memory is declared. -/
  | prgDeclared
  /-- There is room for the program memory that is declared. -/
  | prgRom
  /-- There is room for the pattern memory that is declared. -/
  | chrRom
  /-- The board is supported. -/
  | board
  deriving DecidableEq, Repr

namespace Demand

/-- The place in the order. -/
def rank : Demand → Nat
  | header => 0
  | tag => 1
  | trainer => 2
  | prgDeclared => 3
  | prgRom => 4
  | chrRom => 5
  | board => 6

/-- An image meets a demand. -/
def IsMet (image : ByteArray) : Demand → Prop
  | header => 16 ≤ image.size
  | tag =>
    [byteAt image 0, byteAt image 1, byteAt image 2, byteAt image 3] = [0x4E, 0x45, 0x53, 0x1A]
  | trainer => prgStart image ≤ image.size
  | prgDeclared => (declaredExtent image).prgBanks ≠ 0
  | prgRom => prgEnd image ≤ image.size
  | chrRom => prgEnd image + 8192 * (declaredExtent image).chrBanks ≤ image.size
  | board => (declaredHeader image).mapperNumber ∈ [0, 1, 2, 3, 4, 9]

/-- The refusal of an image that does not meet a demand. -/
def refusal (image : ByteArray) : Demand → LoadError
  | header => .truncated .header 16 image.size
  | tag => .badTag
  | trainer => .truncated .trainer 512 (image.size - 16)
  | prgDeclared => .noPrgRom
  | prgRom => .truncated .prgRom (declaredExtent image).prgSize (image.size - prgStart image)
  | chrRom =>
    .truncated .chrRom (8192 * (declaredExtent image).chrBanks) (image.size - prgEnd image)
  | board => .unsupportedBoard (declaredHeader image).mapperNumber

end Demand

/-- The first demand that an image does not meet. -/
structure IsFirstUnmet (image : ByteArray) (demand : Demand) : Prop where
  unmet : ¬ demand.IsMet image
  earlier : ∀ other : Demand, other.rank < demand.rank → other.IsMet image

variable {image : ByteArray} {demand : Demand}

theorem exists_isFirstUnmet (h : ¬ ∀ demand : Demand, demand.IsMet image) :
    ∃ demand, IsFirstUnmet image demand := by
  obtain ⟨some_unmet, unmet⟩ := not_forall.mp h
  obtain ⟨demand, unmet, least⟩ := WellFounded.has_min (measure Demand.rank).wf
    {demand | ¬ demand.IsMet image} ⟨some_unmet, unmet⟩
  refine ⟨demand, unmet, fun other below => ?_⟩
  by_contra other_unmet
  exact least other other_unmet below

theorem prgStart_declaredHeader (image : ByteArray) :
    (declaredHeader image).prgStart = prgStart image := by
  unfold Header.prgStart Header.hasTrainer prgStart declaredHeader
  by_cases none : byteAt image 6 &&& 0x04 = 0 <;> simp [none, Header.size, Header.trainerSize]

/-- Program memory is counted in units of 8 KiB in an image that is not of the newest flavour, has
exactly the size for such units and is too short for units of 16 KiB. -/
theorem declaredContainer_eq_halfPrg_iff (image : ByteArray) :
    declaredContainer image = .halfPrg ↔
      byteAt image 7 &&& 0x0C ≠ 0x08 ∧
      image.size =
        prgStart image + 8192 * (byteAt image 4).toNat + 8192 * (byteAt image 5).toNat ∧
      image.size <
        prgStart image + 16384 * (byteAt image 4).toNat + 8192 * (byteAt image 5).toNat := by
  unfold declaredContainer Header.container
  rw [prgStart_declaredHeader]
  dsimp only [declaredHeader]
  by_cases newest : byteAt image 7 &&& 0x0C = 0x08
  · simp [newest]
  · simp only [beq_iff_eq, newest, if_false, Bool.and_eq_true, decide_eq_true_eq,
      ite_eq_left_iff, reduceCtorEq, imp_false, not_not]
    unfold Header.prgUnit Header.halfPrgUnit Header.chrUnit
    constructor
    · rintro ⟨short, exact_size⟩
      exact ⟨newest, by omega, by omega⟩
    · rintro ⟨-, exact_size, short⟩
      exact ⟨by omega, by omega⟩

/-! ### Taking an image apart -/

theorem parseHeader_eq_ok (room : Demand.header.IsMet image) (tagged : Demand.tag.IsMet image) :
    Header.parse image = .ok (declaredHeader image) := by
  unfold Header.parse
  have long : ¬ image.size < Header.size := Nat.not_lt.mpr room
  have mark : #v[byteAt image 0, byteAt image 1, byteAt image 2, byteAt image 3] = Header.tag := by
    simpa [Header.tag, Demand.IsMet] using tagged
  dsimp only
  rw [if_neg long, if_pos mark]
  rfl

/-- An image with a header is taken apart as the header declares. -/
theorem parse_eq (room : Demand.header.IsMet image) (tagged : Demand.tag.IsMet image) :
    parse image =
      if image.size < prgStart image then .error (Demand.trainer.refusal image)
      else if h : 0 < (declaredExtent image).prgBanks then
        if image.size - prgStart image < (declaredExtent image).prgSize then
          .error (Demand.prgRom.refusal image)
        else do
          let chr ← takeChr image (prgEnd image) (declaredExtent image).chrBanks
            (declaredContainer image)
          pure {
            header := declaredHeader image
            container := declaredContainer image
            prg := takePrg image (prgStart image) (declaredExtent image).prgSize
              (declaredExtent image).prgBanks h
            chr
            banks := ⟨(declaredExtent image).prgBanks, (declaredExtent image).chrBanks, h⟩ }
      else .error .noPrgRom := by
  unfold parse
  rw [parseHeader_eq_ok room tagged]
  dsimp only [bind, Except.bind]
  rw [prgStart_declaredHeader]
  have extent : (declaredHeader image).extent ((declaredHeader image).container image.size) =
    declaredExtent image := rfl
  by_cases short : image.size < prgStart image
  · rw [if_pos short, if_pos short]
    rfl
  · rw [if_neg short, if_neg short]
    by_cases declared : 0 < (declaredExtent image).prgBanks
    · rw [extent, dif_pos declared, dif_pos declared]
      by_cases cut_off : image.size - prgStart image < (declaredExtent image).prgSize
      · rw [if_pos cut_off, if_pos cut_off]
        rfl
      · rw [if_neg cut_off, if_neg cut_off]
        rfl
    · rw [extent, dif_neg declared, dif_neg declared]
      rfl

theorem takeChr_eq_error (room : Demand.prgRom.IsMet image)
    (short : ¬ Demand.chrRom.IsMet image) :
    takeChr image (prgEnd image) (declaredExtent image).chrBanks (declaredContainer image) =
      .error (Demand.chrRom.refusal image) := by
  unfold Demand.IsMet at room short
  dsimp only at room short
  have some_banks : ¬ (declaredExtent image).chrBanks = 0 := by omega
  have cut_off : image.size - prgEnd image < (declaredExtent image).chrBanks * Header.chrUnit := by
    unfold Header.chrUnit
    omega
  unfold takeChr
  rw [dif_neg some_banks]
  dsimp only
  rw [dif_pos cut_off, Nat.mul_comm]
  rfl

/-- An image is refused for the first demand that it does not meet. -/
theorem parse_eq_error (first : IsFirstUnmet image demand) (other : demand ≠ .board) :
    parse image = .error (demand.refusal image) := by
  have unmet := first.unmet
  have met : ∀ earlier : Demand, earlier.rank < demand.rank → earlier.IsMet image := first.earlier
  cases demand with
  | header =>
    have short : image.size < Header.size := Nat.not_le.mp unmet
    unfold parse Header.parse
    dsimp only
    rw [if_pos short]
    rfl
  | tag =>
    have long : ¬ image.size < Header.size := Nat.not_lt.mpr (met .header (by decide))
    have strange :
        #v[byteAt image 0, byteAt image 1, byteAt image 2, byteAt image 3] ≠ Header.tag := by
      simpa [Header.tag, Demand.IsMet] using unmet
    unfold parse Header.parse
    dsimp only
    rw [if_neg long, if_neg strange]
    rfl
  | trainer =>
    rw [parse_eq (met .header (by decide)) (met .tag (by decide)), if_pos (Nat.not_le.mp unmet)]
  | prgDeclared =>
    have fits : ¬ image.size < prgStart image := Nat.not_lt.mpr (met .trainer (by decide))
    have none : ¬ 0 < (declaredExtent image).prgBanks := fun some => unmet (Nat.ne_of_gt some)
    rw [parse_eq (met .header (by decide)) (met .tag (by decide)), if_neg fits, dif_neg none]
    rfl
  | prgRom =>
    have fits : prgStart image ≤ image.size := met .trainer (by decide)
    have declared := Nat.pos_of_ne_zero (met .prgDeclared (by decide))
    have cut_off : image.size - prgStart image < (declaredExtent image).prgSize := by
      unfold Demand.IsMet prgEnd at unmet
      omega
    rw [parse_eq (met .header (by decide)) (met .tag (by decide)), if_neg (Nat.not_lt.mpr fits),
      dif_pos declared, if_pos cut_off]
  | chrRom =>
    have fits : prgStart image ≤ image.size := met .trainer (by decide)
    have declared := Nat.pos_of_ne_zero (met .prgDeclared (by decide))
    have prg : prgStart image + (declaredExtent image).prgSize ≤ image.size :=
      met .prgRom (by decide)
    rw [parse_eq (met .header (by decide)) (met .tag (by decide)), if_neg (Nat.not_lt.mpr fits),
      dif_pos declared, if_neg (by omega), takeChr_eq_error prg unmet]
    rfl
  | board => exact absurd rfl other

/-- Pattern memory is cut out of the image, or stands for a blank bank. -/
theorem exists_takeChr (room : Demand.chrRom.IsMet image) :
    ∃ chr, takeChr image (prgEnd image) (declaredExtent image).chrBanks
        (declaredContainer image) = .ok chr ∧
      chr.bytes =
        if (declaredExtent image).chrBanks = 0 then zeroBytes 8192
        else image.extract (prgEnd image) (chrEnd image) := by
  unfold takeChr
  by_cases none : (declaredExtent image).chrBanks = 0
  · rw [dif_pos none, if_pos none]
    exact ⟨_, rfl, rfl⟩
  · have enough :
        ¬ image.size - prgEnd image < (declaredExtent image).chrBanks * Header.chrUnit := by
      unfold Demand.IsMet at room
      unfold Header.chrUnit
      omega
    rw [dif_neg none, if_neg none]
    dsimp only
    rw [dif_neg enough]
    refine ⟨_, rfl, ?_⟩
    dsimp only [chrEnd]
    rw [Nat.mul_comm 8192, Nat.mul_comm 2]
    rfl

/-- An image that meets the demands on its parts is taken apart. -/
theorem exists_parse (met : ∀ demand : Demand, demand ≠ .board → demand.IsMet image) :
    ∃ parsed, parse image = .ok parsed ∧ parsed.header = declaredHeader image ∧
      parsed.container = declaredContainer image ∧
      parsed.banks.prg = (declaredExtent image).prgBanks ∧
      parsed.banks.chr = (declaredExtent image).chrBanks ∧
      parsed.prg.bytes = image.extract (prgStart image) (prgEnd image) ++
        zeroBytes (16384 * (declaredExtent image).prgBanks - (declaredExtent image).prgSize) ∧
      parsed.chr.bytes =
        if (declaredExtent image).chrBanks = 0 then zeroBytes 8192
        else image.extract (prgEnd image) (chrEnd image) := by
  have fits : prgStart image ≤ image.size := met .trainer (by decide)
  have declared := Nat.pos_of_ne_zero (met .prgDeclared (by decide))
  have prg : prgStart image + (declaredExtent image).prgSize ≤ image.size :=
    met .prgRom (by decide)
  obtain ⟨chr, taken, bytes⟩ := exists_takeChr (met .chrRom (by decide))
  rw [parse_eq (met .header (by decide)) (met .tag (by decide)), if_neg (Nat.not_lt.mpr fits),
    dif_pos declared, if_neg (by omega), taken]
  refine ⟨_, rfl, rfl, rfl, rfl, rfl, ?_, bytes⟩
  have size : (image.extract (prgStart image) (prgEnd image)).size =
      (declaredExtent image).prgSize := by
    rw [ByteArray.size_extract, prgEnd]
    omega
  change _ ++ zeroBytes
    (_ * Header.prgUnit - (image.extract (prgStart image) (prgEnd image)).size) = _
  rw [size, Nat.mul_comm]
  rfl

/-! ### Sizes -/

/-- Counts of banks have eleven bits at most. -/
theorem declaredExtent_banks_lt (image : ByteArray) :
    (declaredExtent image).prgBanks < 2048 ∧ (declaredExtent image).chrBanks < 2048 := by
  have prg := (declaredHeader image).prgChunks.toNat_lt
  have chr := (declaredHeader image).chrChunks.toNat_lt
  unfold declaredExtent Header.extent
  cases declaredContainer image with
  | ines => exact ⟨by dsimp only; omega, by dsimp only; omega⟩
  | nes2 =>
    have low : ((declaredHeader image).prgRamSize &&& 0x07).toNat ≤ 7 := by
      rw [UInt8.toNat_and]
      exact Nat.and_le_right
    have high : (((declaredHeader image).prgRamSize &&& 0x38) >>> 3).toNat ≤ 7 := by
      rw [UInt8.toNat_shiftRight, UInt8.toNat_and, Nat.shiftRight_eq_div_pow]
      exact Nat.div_le_div_right Nat.and_le_right
    exact ⟨by dsimp only; omega, by dsimp only; omega⟩
  | halfPrg =>
    refine ⟨?_, by dsimp only; omega⟩
    dsimp only [Header.halfPrgUnit, Header.prgUnit]
    omega

/-- Program memory in an image fits into the banks that are declared. -/
theorem declaredExtent_prgSize_le (image : ByteArray) :
    (declaredExtent image).prgSize ≤ 16384 * (declaredExtent image).prgBanks := by
  unfold declaredExtent Header.extent
  cases declaredContainer image <;> dsimp only [Header.halfPrgUnit, Header.prgUnit] <;> omega

theorem chrEnd_le (room : Demand.chrRom.IsMet image) : chrEnd image ≤ image.size := by
  unfold Demand.IsMet at room
  unfold chrEnd
  dsimp only at room ⊢
  split <;> omega

/-- Pattern memory is as large as declared, or larger. -/
theorem le_chrEnd (room : Demand.chrRom.IsMet image) :
    prgEnd image + 8192 * (declaredExtent image).chrBanks ≤ chrEnd image := by
  unfold Demand.IsMet at room
  unfold chrEnd
  dsimp only at room ⊢
  split <;> omega

end Image

/-! ### Cartridges -/

/-- A board is made for each of six numbers. -/
theorem Board.exists_ofNumber?_iff (number : UInt8) (counts : BankCounts) :
    (∃ b, ofNumber? number counts = some b) ↔ number ∈ [0, 1, 2, 3, 4, 9] := by
  unfold ofNumber?
  split <;> simp_all

namespace Cartridge

open Image

/-- The cartridge of an image: its memory is cut out of the image, and its board is at power-on. -/
structure IsMadeOf (c : Cartridge) (image : ByteArray) : Prop where
  header : c.header = declaredHeader image
  container : c.container = declaredContainer image
  prgBanks : c.board.banks.prg = (declaredExtent image).prgBanks
  chrBanks : c.board.banks.chr = (declaredExtent image).chrBanks
  /-- No product of bank counts is too large for a word. -/
  board : Board.powerOn c.header.mapperNumber c.board.banks = .ok (some c.board)
  prg : c.prg.bytes = image.extract (prgStart image) (prgEnd image) ++
    zeroBytes (16384 * (declaredExtent image).prgBanks - (declaredExtent image).prgSize)
  prg_size : c.prg.size = 16384 * (declaredExtent image).prgBanks
  chr : c.chr.bytes =
    if (declaredExtent image).chrBanks = 0 then zeroBytes 8192
    else image.extract (prgEnd image) (chrEnd image)
  /-- Nothing is taken from behind the end of the image. -/
  inside : prgEnd image ≤ image.size ∧ chrEnd image ≤ image.size
  halfPrg_iff : c.container = .halfPrg ↔
    byteAt image 7 &&& 0x0C ≠ 0x08 ∧
    image.size = prgStart image + 8192 * (byteAt image 4).toNat + 8192 * (byteAt image 5).toNat ∧
    image.size < prgStart image + 16384 * (byteAt image 4).toNat + 8192 * (byteAt image 5).toNat
  unsaved : c.persistence = .unused

variable {image : ByteArray} {c : Cartridge}

theorem ofImage_eq_error {demand : Demand} (first : IsFirstUnmet image demand) :
    ofImage image = .error (demand.refusal image) := by
  by_cases last : demand = .board
  · subst last
    obtain ⟨parsed, taken, header, -⟩ := exists_parse fun other different =>
      first.earlier other (by cases other <;> first | decide | contradiction)
    unfold ofImage
    rw [taken]
    dsimp only [bind, Except.bind]
    have unsupported : Board.ofNumber? parsed.header.mapperNumber parsed.banks = none := by
      rw [header, Option.eq_none_iff_forall_ne_some]
      exact fun b made => first.unmet ((Board.exists_ofNumber?_iff _ _).mp ⟨b, made⟩)
    rw [unsupported, header]
    rfl
  · unfold ofImage
    rw [parse_eq_error first last]
    rfl

theorem exists_ofImage (met : ∀ demand : Demand, demand.IsMet image) :
    ∃ c, ofImage image = .ok c ∧ c.IsMadeOf image := by
  obtain ⟨parsed, taken, header, container, prgBanks, chrBanks, prg, chr⟩ :=
    exists_parse fun demand _ => met demand
  obtain ⟨board, made⟩ := (Board.exists_ofNumber?_iff (declaredHeader image).mapperNumber
    parsed.banks).mpr (met .board)
  have banks : board.banks = parsed.banks := Board.banks_ofNumber? made
  have loaded : ofImage image = .ok {
      header := parsed.header
      container := parsed.container
      prg := parsed.prg
      chr := parsed.chr
      board } := by
    unfold ofImage
    rw [taken]
    dsimp only [bind, Except.bind]
    rw [header, made, ← header]
    rfl
  obtain ⟨prg_lt, chr_lt⟩ := declaredExtent_banks_lt image
  have fits : parsed.banks.Fits := ⟨by omega, by omega⟩
  have prg_inside : prgEnd image ≤ image.size := met .prgRom
  have prg_fits := declaredExtent_prgSize_le image
  refine ⟨_, loaded, ?_⟩
  exact {
    header
    container
    prgBanks := by rw [banks, prgBanks]
    chrBanks := by rw [banks, chrBanks]
    board := by rw [banks, header, Board.powerOn_of_fits _ fits, made]
    prg
    prg_size := by
      unfold Block.size
      rw [prg, ByteArray.size_append, ByteArray.size_extract, size_zeroBytes]
      unfold prgEnd at prg_inside ⊢
      omega
    chr
    inside := ⟨prg_inside, chrEnd_le (met .chrRom)⟩
    halfPrg_iff := container ▸ declaredContainer_eq_halfPrg_iff image
    unsaved := rfl }

/-- The board is at power-on. -/
theorem IsMadeOf.ofNumber? (made : c.IsMadeOf image) :
    Board.ofNumber? c.header.mapperNumber c.board.banks = some c.board := by
  obtain ⟨prg_lt, chr_lt⟩ := declaredExtent_banks_lt image
  have prg_banks := made.prgBanks
  have chr_banks := made.chrBanks
  have fits : c.board.banks.Fits := ⟨by omega, by omega⟩
  exact Except.ok.inj ((Board.powerOn_of_fits _ fits).symm.trans made.board)

theorem isMadeOf_of_ofImage (loaded : ofImage image = .ok c) :
    (∀ demand : Demand, demand.IsMet image) ∧ c.IsMadeOf image := by
  by_cases met : ∀ demand : Demand, demand.IsMet image
  · obtain ⟨other, loaded', made_of⟩ := exists_ofImage met
    obtain rfl := Except.ok.inj (loaded.symm.trans loaded')
    exact ⟨met, made_of⟩
  · obtain ⟨demand, first⟩ := exists_isFirstUnmet met
    rw [ofImage_eq_error first] at loaded
    cases loaded

/-- An image of zeros behind a header. -/
def blankImage (header : List UInt8) (bytes : Nat) : ByteArray :=
  ⟨⟨header ++ .replicate bytes 0⟩⟩

theorem size_blankImage (header : List UInt8) (bytes : Nat) :
    (blankImage header bytes).size = header.length + bytes := by
  rw [blankImage, ByteArray.size, List.size_toArray, List.length_append, List.length_replicate]

/-- The header of an image with a single bank of program memory and no pattern ROM, by the byte that
holds the flags and the lower half of the mapper number. -/
def bankHeader (flags : UInt8) : List UInt8 :=
  [0x4E, 0x45, 0x53, 0x1A, 1, 0, flags, 0, 0, 0, 0, 0, 0, 0, 0, 0]

theorem size_bank (flags : UInt8) (bytes : Nat) :
    (blankImage (bankHeader flags) bytes).size = 16 + bytes :=
  size_blankImage _ bytes

theorem declaredHeader_bank (flags : UInt8) (bytes : Nat) :
    declaredHeader (blankImage (bankHeader flags) bytes) =
      ⟨1, 0, flags, 0, 0, 0, 0, #v[0, 0, 0, 0, 0]⟩ :=
  rfl

theorem prgStart_bank {flags : UInt8} (untrained : flags &&& 0x04 = 0) (bytes : Nat) :
    prgStart (blankImage (bankHeader flags) bytes) = 16 := by
  have declared : byteAt (blankImage (bankHeader flags) bytes) 6 = flags := rfl
  rw [prgStart, declared, if_pos untrained]

/-- The bank may be there in full or in its first half. -/
theorem declaredExtent_bank {flags : UInt8} (untrained : flags &&& 0x04 = 0) {bytes : Nat}
    (enough : bytes = 8192 ∨ bytes = 16384) :
    declaredExtent (blankImage (bankHeader flags) bytes) = ⟨1, bytes, 0⟩ := by
  have start := (prgStart_declaredHeader _).trans (prgStart_bank untrained bytes)
  rw [declaredExtent, declaredContainer, Header.container, start, size_bank, declaredHeader_bank]
  obtain rfl | rfl := enough <;>
    simp [Header.extent, Header.prgUnit, Header.halfPrgUnit, Header.chrUnit]

theorem isMet_bank {flags : UInt8} (untrained : flags &&& 0x04 = 0)
    (supported : flags >>> 4 ∈ ([0, 1, 2, 3, 4, 9] : List UInt8)) {bytes : Nat}
    (enough : bytes = 8192 ∨ bytes = 16384) (demand : Demand) :
    demand.IsMet (blankImage (bankHeader flags) bytes) := by
  cases demand with
  | tag => rfl
  | board =>
    rw [Demand.IsMet, declaredHeader_bank, Header.mapperNumber]
    simpa using supported
  | header | trainer | prgDeclared | prgRom | chrRom =>
    simp only [Demand.IsMet, prgEnd, declaredExtent_bank untrained enough,
      prgStart_bank untrained, size_bank]
    omega

/-- The cartridge of an image with a single bank. -/
theorem exists_ofImage_bank {flags : UInt8} (untrained : flags &&& 0x04 = 0)
    (supported : flags >>> 4 ∈ ([0, 1, 2, 3, 4, 9] : List UInt8)) :
    ∃ c, ofImage (blankImage (bankHeader flags) 16384) = .ok c ∧ c.header.mapper1 = flags ∧
      Board.ofNumber? (flags >>> 4) c.board.banks = some c.board ∧ c.board.banks.chr = 0 ∧
      c.chr.bytes = zeroBytes 8192 := by
  have whole : 16384 = 8192 ∨ 16384 = 16384 := .inr rfl
  obtain ⟨c, loaded, made⟩ := exists_ofImage (isMet_bank untrained supported whole)
  have header := made.header.trans (declaredHeader_bank flags 16384)
  have extent := declaredExtent_bank untrained whole
  have powered := made.ofNumber?
  have none_declared := made.chrBanks
  have blank := made.chr
  rw [header, Header.mapperNumber] at powered
  rw [extent] at none_declared blank
  exact ⟨c, loaded, by rw [header], by simpa using powered, none_declared, blank⟩

/-- The header of an image for an MMC1 board with a single bank of program memory. -/
def singleBankHeader : List UInt8 :=
  [0x4E, 0x45, 0x53, 0x1A, 1, 0, 0x10, 0, 0, 0, 0, 0, 0, 0, 0, 0]

theorem isMet_singleBank {bytes : Nat} (enough : bytes = 8192 ∨ bytes = 16384) (demand : Demand) :
    demand.IsMet (blankImage singleBankHeader bytes) :=
  isMet_bank (by decide) (by decide) enough demand

end Cartridge

end Famicom
