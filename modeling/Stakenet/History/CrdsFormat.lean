import Mathlib.Data.Nat.Size
import Stakenet.Foundation.Codec
import Stakenet.History.GossipCopy

/-! The format of gossip data: what its encoder writes, and that the decoder accepts nothing
else. -/

namespace Stakenet.History

open Bytes (Byte)
open Bincode (Canonical Reader canonical_bits canonical_option canonical_times canonical_word digits
  writeOption)

/-! ## Integers of variable size -/

/-- The loop of `VarInt::serialize`: seven bits in each byte, and the highest bit set in all but
the last. -/
def writeVarint (value : Nat) : List Byte :=
  if 128 ≤ value then
    BitVec.ofNat 8 (value % 128 + 128) :: writeVarint (value / 128)
  else
    [BitVec.ofNat 8 value]

/-- The number of bytes that the serializer announces. -/
def varintBytes (value : Nat) : Nat := max ((value.size + 6) / 7) 1

theorem writeVarint_of_lt {value : Nat} (small : value < 128) :
    writeVarint value = digits 1 value := by
  rw [writeVarint, if_neg (Nat.not_le.mpr small)]
  rfl

theorem writeVarint_of_le {value : Nat} (large : 128 ≤ value) :
    writeVarint value = digits 1 (value % 128 + 128) ++ writeVarint (value / 128) := by
  rw [writeVarint, if_pos large]
  rfl

/-- As many bytes are written as were announced. -/
theorem length_writeVarint (value : Nat) : (writeVarint value).length = varintBytes value := by
  induction value using Nat.strongRecOn with
  | ind value induction =>
      by_cases small : value < 128
      · have bits : value.size ≤ 7 := Nat.size_le.mpr small
        rw [writeVarint_of_lt small, varintBytes, Bincode.length_digits]
        omega
      · have large : 128 ≤ value := Nat.not_lt.mp small
        have bits : value.size = (value / 128).size + 7 := by
          have shifted : value / 128 = value >>> 7 := (Nat.shiftRight_eq_div_pow value 7).symm
          apply Nat.le_antisymm
          · rw [Nat.size_le, Nat.pow_add]
            have high := Nat.lt_size_self (value / 128)
            omega
          · have positive : 0 < value / 128 := by omega
            have top := Nat.lt_size.mp (Nat.pred_lt (Nat.size_pos.mpr positive).ne')
            have whole : (value / 128).size - 1 + 7 < value.size := by
              rw [Nat.lt_size, Nat.pow_add]
              have := Nat.div_mul_le_self value 128
              exact Nat.le_trans (Nat.mul_le_mul_right _ top) this
            have := Nat.size_pos.mpr positive
            omega
        rw [writeVarint_of_le large, List.length_append, Bincode.length_digits,
          induction (value / 128) (by omega), varintBytes, varintBytes, bits]
        have := Nat.size_pos.mpr (show 0 < value / 128 by omega)
        omega

/-- Seven more bits above those that were read. -/
theorem or_shiftLeft {bits shift out group : Nat} (bounded : out < 2 ^ shift)
    (inside : shift ≤ bits) :
    out ||| (group <<< shift) % 2 ^ bits = out + 2 ^ shift * (group % 2 ^ (bits - shift)) := by
  have split : 2 ^ bits = 2 ^ shift * 2 ^ (bits - shift) := by
    rw [← Nat.pow_add, Nat.add_sub_of_le inside]
  rw [Nat.shiftLeft_eq, Nat.mul_comm group, split, Nat.mul_mod_mul_left, Nat.or_comm,
    ← Nat.two_pow_add_eq_or_of_lt bounded, Nat.add_comm]

/-- A group of seven bits and what is above it. -/
theorem add_groups (shift out low high : Nat) :
    out + 2 ^ shift * low + 2 ^ (shift + 7) * high = out + 2 ^ shift * (low + 128 * high) := by
  rw [Nat.pow_add, Nat.mul_add, Nat.mul_assoc, Nat.add_assoc]

theorem add_group_lt {shift out group : Nat} (bounded : out < 2 ^ shift) (small : group < 128) :
    out + 2 ^ shift * group < 2 ^ (shift + 7) := by
  have most : 2 ^ shift * group ≤ 2 ^ shift * 127 := Nat.mul_le_mul_left _ (by omega)
  rw [Nat.pow_add]
  omega

section Varint

variable {bits shift out remaining value : Nat} {bytes rest : List Byte}

/-- The last byte, below 128. -/
theorem run_lastByte {byte : Nat} (small : byte < 128) (bounded : out < 2 ^ shift)
    (inside : shift < bits) :
    (let out := out ||| ((byte % 128) <<< shift) % 2 ^ bits
      if (out >>> shift) % 256 ≠ byte then Reader.fail
      else if byte = 0 ∧ (shift ≠ 0 ∨ out ≠ 0) then Reader.fail
      else return out : Reader Nat).run bytes = some (value, rest) ↔
    value = out + 2 ^ shift * byte ∧ byte < 2 ^ (bits - shift) ∧ (shift ≠ 0 → byte ≠ 0) ∧
      bytes = rest := by
  have positive : 0 < 2 ^ shift := Nat.two_pow_pos shift
  have atMost : byte % 2 ^ (bits - shift) ≤ byte := Nat.mod_le _ _
  dsimp only
  rw [Nat.mod_eq_of_lt small, or_shiftLeft bounded inside.le, Nat.shiftRight_eq_div_pow,
    Nat.add_mul_div_left _ _ positive, Nat.div_eq_of_lt bounded, Nat.zero_add,
    Nat.mod_eq_of_lt (show byte % 2 ^ (bits - shift) < 256 by omega)]
  by_cases fits : byte < 2 ^ (bits - shift)
  · have first : shift = 0 → out = 0 := by
      intro none
      rw [none] at bounded
      exact Nat.lt_one_iff.mp bounded
    rw [Nat.mod_eq_of_lt fits, if_neg (not_not.mpr rfl)]
    by_cases trailing : byte = 0 ∧ shift ≠ 0
    · rw [if_pos ⟨trailing.1, .inl trailing.2⟩, Reader.run_fail_eq_some]
      simp [trailing]
    · have kept : ¬(byte = 0 ∧ (shift ≠ 0 ∨ out + 2 ^ shift * byte ≠ 0)) := by
        intro zeros
        rcases zeros with ⟨rfl, later | nonzero⟩
        · exact trailing ⟨rfl, later⟩
        · by_cases none : shift = 0
          · exact nonzero (by rw [first none, Nat.mul_zero])
          · exact trailing ⟨rfl, none⟩
      rw [if_neg kept, Reader.run_pure_eq_some]
      constructor
      · intro read
        exact ⟨read.1.symm, fits, fun later zero => trailing ⟨zero, later⟩, read.2⟩
      · intro written
        exact ⟨written.1.symm, written.2.2.2⟩
  · have truncated : byte % 2 ^ (bits - shift) ≠ byte := by
      intro same
      exact fits (same ▸ Nat.mod_lt _ (Nat.two_pow_pos _))
    rw [if_pos truncated, Reader.run_fail_eq_some]
    simp [fits]

/-- What the loop makes of the bytes that are left, with `shift` bits read into `out`: they are
those of the number above these bits, which is zero only for a single byte. -/
theorem run_varintFrom (bounded : out < 2 ^ shift) (started : shift < bits ∨ shift ≠ 0)
    (left : remaining = (bits - shift + 6) / 7) :
    (varintFrom bits shift out remaining).run bytes = some (value, rest) ↔
      ∃ high, value = out + 2 ^ shift * high ∧ high < 2 ^ (bits - shift) ∧
        (shift ≠ 0 → high ≠ 0) ∧ bytes = writeVarint high ++ rest := by
  induction remaining generalizing shift out bytes with
  | zero =>
      have full : bits - shift = 0 := by omega
      rw [varintFrom, Reader.run_fail_eq_some, full]
      constructor
      · exact False.elim
      · intro written
        rcases written with ⟨high, _, none, nonzero, _⟩
        exact nonzero (by omega) (Nat.lt_one_iff.mp none)
  | succ remaining induction =>
      have inside : shift < bits := by omega
      rw [varintFrom, Reader.u8, (canonical_word 1).run_bind]
      constructor
      · intro read
        rcases read with ⟨byte, middle, isByte, rfl, read⟩
        by_cases small : byte < 128
        · rw [if_pos small] at read
          rcases (run_lastByte small bounded inside).mp read with ⟨rfl, fits, nonzero, rfl⟩
          exact ⟨byte, rfl, fits, nonzero, by rw [writeVarint_of_lt small]⟩
        · rw [if_neg small, or_shiftLeft bounded inside.le] at read
          have group : byte % 128 % 2 ^ (bits - shift) < 128 :=
            Nat.lt_of_le_of_lt (Nat.mod_le _ _) (Nat.mod_lt _ (by decide))
          have carried := add_group_lt bounded group
          rcases (induction carried (.inr (Nat.succ_ne_zero _)) (by omega)).mp read with
            ⟨high, rfl, fits, nonzero, rfl⟩
          have positive : 0 < high := Nat.pos_of_ne_zero (nonzero (Nat.succ_ne_zero _))
          have more : shift + 7 < bits := by
            by_contra full
            rw [Nat.sub_eq_zero_of_le (Nat.not_lt.mp full), Nat.pow_zero] at fits
            omega
          have split : 2 ^ (bits - shift) = 128 * 2 ^ (bits - (shift + 7)) := by
            rw [show bits - shift = 7 + (bits - (shift + 7)) by omega, Nat.pow_add]
          have whole : byte % 128 % 2 ^ (bits - shift) = byte % 128 :=
            Nat.mod_eq_of_lt (by omega)
          have digit : (byte % 128 + 128 * high) % 128 + 128 = byte := by
            have top : byte < 256 := isByte
            omega
          refine ⟨byte % 128 + 128 * high, ?_, by omega, fun _ => by omega, ?_⟩
          · rw [whole, add_groups]
          · rw [writeVarint_of_le (show 128 ≤ byte % 128 + 128 * high by omega), digit,
              show (byte % 128 + 128 * high) / 128 = high by omega, List.append_assoc]
      · intro written
        rcases written with ⟨high, rfl, fits, nonzero, rfl⟩
        by_cases small : high < 128
        · refine ⟨high, rest, by omega, by rw [writeVarint_of_lt small], ?_⟩
          rw [if_pos small]
          exact (run_lastByte small bounded inside).mpr ⟨rfl, fits, nonzero, rfl⟩
        · have large : 128 ≤ high := Nat.not_lt.mp small
          have more : shift + 7 < bits := by
            by_contra full
            have few : 2 ^ (bits - shift) ≤ 2 ^ 7 := Nat.pow_le_pow_right (by decide) (by omega)
            omega
          have split : 2 ^ (bits - shift) = 128 * 2 ^ (bits - (shift + 7)) := by
            rw [show bits - shift = 7 + (bits - (shift + 7)) by omega, Nat.pow_add]
          have group : (high % 128 + 128) % 128 % 2 ^ (bits - shift) = high % 128 := by
            rw [Nat.add_mod_right, Nat.mod_mod, Nat.mod_eq_of_lt (by omega)]
          have carried := add_group_lt bounded (show high % 128 < 128 by omega)
          refine ⟨high % 128 + 128, writeVarint (high / 128) ++ rest, by omega, ?_, ?_⟩
          · rw [writeVarint_of_le large, List.append_assoc]
          · rw [if_neg (by omega), or_shiftLeft bounded inside.le, group]
            apply (induction carried (.inr (Nat.succ_ne_zero _)) (by omega)).mpr
            refine ⟨high / 128, ?_, by omega, fun _ => by omega, rfl⟩
            rw [add_groups, Nat.mod_add_div]

end Varint

theorem canonical_varint {bits : Nat} (positive : 0 < bits) :
    Canonical (varint bits) writeVarint (· < 2 ^ bits) := by
  intro bytes value rest
  rw [varint, run_varintFrom Nat.one_pos (.inl positive) (by rw [Nat.sub_zero])]
  constructor
  · intro read
    rcases read with ⟨high, rfl, fits, _, rfl⟩
    rw [Nat.zero_add, Nat.pow_zero, Nat.one_mul]
    exact ⟨fits, rfl⟩
  · intro written
    rcases written with ⟨fits, rfl⟩
    exact ⟨value, by rw [Nat.zero_add, Nat.pow_zero, Nat.one_mul], fits,
      fun nonzero => absurd rfl nonzero, rfl⟩

/-- For integers of any width the decoder accepts exactly the bytes that the encoder writes, which
are as many as the encoder announces. -/
theorem varint_canonical (bits : Nat) (positive : 0 < bits) :
    Canonical (varint bits) writeVarint (· < 2 ^ bits) ∧
      ∀ value, (writeVarint value).length = varintBytes value :=
  ⟨canonical_varint positive, length_writeVarint⟩

theorem varint_canonical_u16 :
    Canonical (varint 16) writeVarint (· < 2 ^ 16) ∧
      ∀ value, (writeVarint value).length = varintBytes value :=
  varint_canonical 16 (by decide)

/-! ## Addresses -/

def Pubkey.write (key : Pubkey) : List Byte := digits 32 key.toNat

theorem pubkey_canonical : Canonical pubkey Pubkey.write fun _ => True :=
  canonical_bits rfl

def IpAddr.tag : IpAddr → Nat
  | .v4 _ => 0
  | .v6 _ => 1

def IpAddr.writeContent : IpAddr → List Byte
  | .v4 address => digits 4 address.octets.toNat
  | .v6 address => digits 16 address.toNat

def IpAddr.write (address : IpAddr) : List Byte := digits 4 address.tag ++ address.writeContent

theorem ipv4_canonical :
    Canonical ipv4 (fun address => digits 4 address.octets.toNat) fun _ => True := by
  apply (canonical_word 4).variant
  · exact fun word inRange => congrArg (digits 4) (Nat.mod_eq_of_lt inRange)
  · intro address
    refine iff_of_true trivial ⟨address.octets.toNat, address.octets.isLt, ?_⟩
    rw [BitVec.ofNat_toNat, BitVec.setWidth_eq]

theorem ipAddr_canonical : Canonical ipAddr IpAddr.write fun _ => True := by
  have tagged : Canonical ipAddr (fun address => digits 4 address.tag ++ address.writeContent)
      fun address => True ∧ address.tag < 256 ^ 4 ∧ True := by
    refine (canonical_word 4).field IpAddr.tag fun tag => ?_
    split
    case h_1 =>
      exact ipv4_canonical.variant (fun _ _ => rfl) fun address => by
        cases address <;> simp [IpAddr.tag]
    case h_2 =>
      apply (canonical_bits (show 128 = 8 * 16 from rfl)).variant
      · exact fun _ _ => rfl
      · exact fun address => by cases address <;> simp [IpAddr.tag]
    case h_3 nonzero notOne =>
      refine .refused fun address allowed => ?_
      rcases allowed with ⟨⟨_, rfl⟩, _⟩
      cases address with
      | v4 address => exact nonzero rfl
      | v6 address => exact notOne rfl
  refine tagged.record (fun _ => rfl) fun address => ?_
  cases address <;> simp [IpAddr.tag]

def SocketAddr.write (address : SocketAddr) : List Byte :=
  address.ip.write ++ digits 2 address.port

theorem socketAddr_canonical :
    Canonical socketAddr SocketAddr.write fun address => address.port < 2 ^ 16 := by
  refine .record (ipAddr_canonical.field SocketAddr.ip fun _ =>
    (canonical_word 2).field SocketAddr.port fun _ => .finish fun address => ?_)
    (fun address => ?_) fun address => ?_
  · cases address
    simp
  · simp [SocketAddr.write]
  · simp

/-! ## Contact info -/

def SocketEntry.write (entry : SocketEntry) : List Byte :=
  digits 1 entry.key ++ digits 1 entry.index ++ writeVarint entry.offset

def SocketEntry.InRange (entry : SocketEntry) : Prop :=
  entry.key < 2 ^ 8 ∧ entry.index < 2 ^ 8 ∧ entry.offset < 2 ^ 16

theorem socketEntry_canonical :
    Canonical socketEntry SocketEntry.write SocketEntry.InRange := by
  refine .record ((canonical_word 1).field SocketEntry.key fun _ =>
    (canonical_word 1).field SocketEntry.index fun _ =>
    (canonical_varint (by decide)).field SocketEntry.offset fun _ => .finish fun entry => ?_)
    (fun entry => ?_) fun entry => ?_
  · cases entry
    simp [and_assoc]
  · simp [SocketEntry.write]
  · simp [SocketEntry.InRange]

def Version.write (version : Version) : List Byte :=
  writeVarint version.major ++ writeVarint version.minor ++ writeVarint version.patch ++
    digits 4 version.commit ++ digits 4 version.featureSet ++ writeVarint version.client

structure Version.InRange (version : Version) : Prop where
  major : version.major < 2 ^ 16
  minor : version.minor < 2 ^ 16
  patch : version.patch < 2 ^ 16
  commit : version.commit < 2 ^ 32
  featureSet : version.featureSet < 2 ^ 32
  client : version.client < 2 ^ 16

theorem version_canonical : Canonical versionReader Version.write Version.InRange := by
  refine .record ((canonical_varint (by decide)).field Version.major fun _ =>
    (canonical_varint (by decide)).field Version.minor fun _ =>
    (canonical_varint (by decide)).field Version.patch fun _ =>
    (canonical_word 4).field Version.commit fun _ =>
    (canonical_word 4).field Version.featureSet fun _ =>
    (canonical_varint (by decide)).field Version.client fun _ => .finish fun version => ?_)
    (fun version => ?_) fun version => ?_
  · cases version
    simp [and_assoc]
  · simp [Version.write]
  · constructor
    · intro ranges
      rcases ranges with ⟨major, minor, patch, commit, featureSet, client, _⟩
      exact { major, minor, patch, commit, featureSet, client }
    · intro ranges
      exact ⟨ranges.major, ranges.minor, ranges.patch, ranges.commit, ranges.featureSet,
        ranges.client, trivial⟩

section ShortVec

variable (shortU16 : Reader Nat) (writeShortU16 : Nat → List Byte)

def writeShortVec (write : α → List Byte) (items : List α) : List Byte :=
  writeShortU16 items.length ++ items.flatMap write

def ContactInfo.write (info : ContactInfo) : List Byte :=
  Pubkey.write info.pubkey ++ writeVarint info.wallclock ++ digits 8 info.outset ++
    digits 2 info.shredVersion ++ info.version.write ++
    writeShortVec writeShortU16 IpAddr.write info.addrs ++
    writeShortVec writeShortU16 SocketEntry.write info.sockets

structure ContactInfo.InRange (info : ContactInfo) : Prop where
  wallclock : info.wallclock < 2 ^ 64
  outset : info.outset < 2 ^ 64
  shredVersion : info.shredVersion < 2 ^ 16
  version : info.version.InRange
  addrs : info.addrs.length < 2 ^ 16
  sockets : info.sockets.length < 2 ^ 16 ∧ ∀ entry ∈ info.sockets, entry.InRange

variable {shortU16 writeShortU16}

theorem canonical_shortVec (lengths : Canonical shortU16 writeShortU16 (· < 2 ^ 16))
    {reader : Reader α} {write : α → List Byte} {InRange : α → Prop}
    (canonical : Canonical reader write InRange) :
    Canonical (shortVec shortU16 reader) (writeShortVec writeShortU16 write) fun items =>
      items.length < 2 ^ 16 ∧ ∀ item ∈ items, InRange item := by
  intro bytes items rest
  rw [shortVec, lengths.run_bind]
  constructor
  · intro read
    rcases read with ⟨count, middle, inRange, rfl, read⟩
    rcases (canonical_times canonical count _ _ _).mp read with ⟨⟨rfl, allInRange⟩, rfl⟩
    exact ⟨⟨inRange, allInRange⟩, (List.append_assoc _ _ _).symm⟩
  · intro written
    rcases written with ⟨⟨inRange, allInRange⟩, rfl⟩
    refine ⟨items.length, items.flatMap write ++ rest, inRange, List.append_assoc _ _ _, ?_⟩
    exact (canonical_times canonical items.length _ _ _).mpr ⟨⟨rfl, allInRange⟩, rfl⟩

theorem contactInfo_canonical (lengths : Canonical shortU16 writeShortU16 (· < 2 ^ 16)) :
    Canonical (contactInfoReader shortU16) (ContactInfo.write writeShortU16)
      ContactInfo.InRange := by
  refine .record (pubkey_canonical.field ContactInfo.pubkey fun _ =>
    (canonical_varint (by decide)).field ContactInfo.wallclock fun _ =>
    (canonical_word 8).field ContactInfo.outset fun _ =>
    (canonical_word 2).field ContactInfo.shredVersion fun _ =>
    version_canonical.field ContactInfo.version fun _ =>
    (canonical_shortVec lengths ipAddr_canonical).field ContactInfo.addrs fun _ =>
    (canonical_shortVec lengths socketEntry_canonical).field ContactInfo.sockets fun _ =>
    .finish fun info => ?_) (fun info => ?_) fun info => ?_
  · cases info
    simp [and_assoc]
  · simp [ContactInfo.write]
  · constructor
    · intro ranges
      rcases ranges with ⟨_, wallclock, outset, shredVersion, version, addrs, sockets, _⟩
      exact { wallclock, outset, shredVersion, version, addrs := addrs.1, sockets }
    · intro ranges
      exact ⟨trivial, ranges.wallclock, ranges.outset, ranges.shredVersion, ranges.version,
        ⟨ranges.addrs, fun _ _ => trivial⟩, ranges.sockets, trivial⟩

end ShortVec

/-! ## Legacy payloads -/

def LegacyContactInfo.addresses (info : LegacyContactInfo) : List SocketAddr :=
  [info.gossip, info.tvu, info.tvuForwards, info.repair, info.tpu, info.tpuForwards, info.tpuVote,
    info.rpc, info.rpcPubsub, info.serveRepair]

def LegacyContactInfo.write (info : LegacyContactInfo) : List Byte :=
  Pubkey.write info.id ++ info.addresses.flatMap SocketAddr.write ++ digits 8 info.wallclock ++
    digits 2 info.shredVersion

structure LegacyContactInfo.InRange (info : LegacyContactInfo) : Prop where
  addresses : ∀ address ∈ info.addresses, address.port < 2 ^ 16
  wallclock : info.wallclock < 2 ^ 64
  shredVersion : info.shredVersion < 2 ^ 16

theorem legacyContactInfo_canonical :
    Canonical legacyContactInfoReader LegacyContactInfo.write LegacyContactInfo.InRange := by
  refine .record (pubkey_canonical.field LegacyContactInfo.id fun _ =>
    socketAddr_canonical.field LegacyContactInfo.gossip fun _ =>
    socketAddr_canonical.field LegacyContactInfo.tvu fun _ =>
    socketAddr_canonical.field LegacyContactInfo.tvuForwards fun _ =>
    socketAddr_canonical.field LegacyContactInfo.repair fun _ =>
    socketAddr_canonical.field LegacyContactInfo.tpu fun _ =>
    socketAddr_canonical.field LegacyContactInfo.tpuForwards fun _ =>
    socketAddr_canonical.field LegacyContactInfo.tpuVote fun _ =>
    socketAddr_canonical.field LegacyContactInfo.rpc fun _ =>
    socketAddr_canonical.field LegacyContactInfo.rpcPubsub fun _ =>
    socketAddr_canonical.field LegacyContactInfo.serveRepair fun _ =>
    (canonical_word 8).field LegacyContactInfo.wallclock fun _ =>
    (canonical_word 2).field LegacyContactInfo.shredVersion fun _ => .finish fun info => ?_)
    (fun info => ?_) fun info => ?_
  · cases info
    simp [and_assoc]
  · simp [LegacyContactInfo.write, LegacyContactInfo.addresses]
  · constructor
    · intro ranges
      rcases ranges with
        ⟨_, gossip, tvu, forwards, repair, tpu, tpuForwards, vote, rpc, pubsub, serve, wallclock,
          shredVersion, _⟩
      refine { addresses := ?_, wallclock, shredVersion }
      simp only [LegacyContactInfo.addresses, List.forall_mem_cons]
      exact ⟨gossip, tvu, forwards, repair, tpu, tpuForwards, vote, rpc, pubsub, serve, by simp⟩
    · intro ranges
      have ports := ranges.addresses
      simp only [LegacyContactInfo.addresses, List.forall_mem_cons] at ports
      rcases ports with
        ⟨gossip, tvu, forwards, repair, tpu, tpuForwards, vote, rpc, pubsub, serve, _⟩
      exact ⟨trivial, gossip, tvu, forwards, repair, tpu, tpuForwards, vote, rpc, pubsub, serve,
        ranges.wallclock, ranges.shredVersion, trivial⟩

def LegacyVersion1.write (version : LegacyVersion1) : List Byte :=
  digits 2 version.major ++ digits 2 version.minor ++ digits 2 version.patch ++
    writeOption (digits 4) version.commit

structure LegacyVersion1.InRange (version : LegacyVersion1) : Prop where
  major : version.major < 2 ^ 16
  minor : version.minor < 2 ^ 16
  patch : version.patch < 2 ^ 16
  commit : ∀ commit ∈ version.commit, commit < 2 ^ 32

theorem legacyVersion1_canonical :
    Canonical legacyVersion1 LegacyVersion1.write LegacyVersion1.InRange := by
  refine .record ((canonical_word 2).field LegacyVersion1.major fun _ =>
    (canonical_word 2).field LegacyVersion1.minor fun _ =>
    (canonical_word 2).field LegacyVersion1.patch fun _ =>
    (canonical_option (canonical_word 4)).field LegacyVersion1.commit fun _ =>
    .finish fun version => ?_) (fun version => ?_) fun version => ?_
  · cases version
    simp [and_assoc]
  · simp [LegacyVersion1.write]
  · constructor
    · intro ranges
      rcases ranges with ⟨major, minor, patch, commit, _⟩
      exact { major, minor, patch, commit }
    · intro ranges
      exact ⟨ranges.major, ranges.minor, ranges.patch, ranges.commit, trivial⟩

def LegacyVersion2.write (version : LegacyVersion2) : List Byte :=
  digits 2 version.major ++ digits 2 version.minor ++ digits 2 version.patch ++
    writeOption (digits 4) version.commit ++ digits 4 version.featureSet

structure LegacyVersion2.InRange (version : LegacyVersion2) : Prop where
  major : version.major < 2 ^ 16
  minor : version.minor < 2 ^ 16
  patch : version.patch < 2 ^ 16
  commit : ∀ commit ∈ version.commit, commit < 2 ^ 32
  featureSet : version.featureSet < 2 ^ 32

theorem legacyVersion2_canonical :
    Canonical legacyVersion2 LegacyVersion2.write LegacyVersion2.InRange := by
  refine .record ((canonical_word 2).field LegacyVersion2.major fun _ =>
    (canonical_word 2).field LegacyVersion2.minor fun _ =>
    (canonical_word 2).field LegacyVersion2.patch fun _ =>
    (canonical_option (canonical_word 4)).field LegacyVersion2.commit fun _ =>
    (canonical_word 4).field LegacyVersion2.featureSet fun _ =>
    .finish fun version => ?_) (fun version => ?_) fun version => ?_
  · cases version
    simp [and_assoc]
  · simp [LegacyVersion2.write]
  · constructor
    · intro ranges
      rcases ranges with ⟨major, minor, patch, commit, featureSet, _⟩
      exact { major, minor, patch, commit, featureSet }
    · intro ranges
      exact ⟨ranges.major, ranges.minor, ranges.patch, ranges.commit, ranges.featureSet, trivial⟩

def LegacyVersion.write (version : LegacyVersion) : List Byte :=
  Pubkey.write version.sender ++ digits 8 version.wallclock ++ version.version.write

def LegacyVersion.InRange (version : LegacyVersion) : Prop :=
  version.wallclock < 2 ^ 64 ∧ version.version.InRange

theorem legacyVersion_canonical :
    Canonical legacyVersionReader LegacyVersion.write LegacyVersion.InRange := by
  refine .record (pubkey_canonical.field LegacyVersion.sender fun _ =>
    (canonical_word 8).field LegacyVersion.wallclock fun _ =>
    legacyVersion1_canonical.field LegacyVersion.version fun _ =>
    .finish fun version => ?_) (fun version => ?_) fun version => ?_
  · cases version
    simp [and_assoc]
  · simp [LegacyVersion.write]
  · simp [LegacyVersion.InRange]

def Version2.write (version : Version2) : List Byte :=
  Pubkey.write version.sender ++ digits 8 version.wallclock ++ version.version.write

def Version2.InRange (version : Version2) : Prop :=
  version.wallclock < 2 ^ 64 ∧ version.version.InRange

theorem version2_canonical : Canonical version2Reader Version2.write Version2.InRange := by
  refine .record (pubkey_canonical.field Version2.sender fun _ =>
    (canonical_word 8).field Version2.wallclock fun _ =>
    legacyVersion2_canonical.field Version2.version fun _ =>
    .finish fun version => ?_) (fun version => ?_) fun version => ?_
  · cases version
    simp [and_assoc]
  · simp [Version2.write]
  · simp [Version2.InRange]

/-! ## Gossip data -/

/-- The number of the variant. -/
def CrdsData.tag : CrdsData → Nat
  | .legacyContactInfo _ => 0
  | .vote => 1
  | .lowestSlot => 2
  | .legacySnapshotHashes => 3
  | .accountsHashes => 4
  | .epochSlots => 5
  | .legacyVersion _ => 6
  | .version _ => 7
  | .nodeInstance => 8
  | .duplicateShred => 9
  | .snapshotHashes => 10
  | .contactInfo _ => 11

def CrdsData.writeContent (writeShortU16 : Nat → List Byte) : CrdsData → List Byte
  | .legacyContactInfo data => data.write
  | .legacyVersion data => data.write
  | .version data => data.write
  | .contactInfo data => data.write writeShortU16
  | _ => []

def CrdsData.write (writeShortU16 : Nat → List Byte) (data : CrdsData) : List Byte :=
  digits 4 data.tag ++ data.writeContent writeShortU16

def CrdsData.InRange : CrdsData → Prop
  | .legacyContactInfo data => data.InRange
  | .legacyVersion data => data.InRange
  | .version data => data.InRange
  | .contactInfo data => data.InRange
  | _ => True

theorem canonical_crdsData {shortU16 : Reader Nat} {writeShortU16 : Nat → List Byte}
    (lengths : Canonical shortU16 writeShortU16 (· < 2 ^ 16)) :
    Canonical (crdsData shortU16) (CrdsData.write writeShortU16) CrdsData.InRange := by
  have tagged : Canonical (crdsData shortU16)
      (fun data => digits 4 data.tag ++ data.writeContent writeShortU16)
      fun data => True ∧ data.tag < 256 ^ 4 ∧ data.InRange := by
    refine (canonical_word 4).field CrdsData.tag fun tag => ?_
    split
    case h_1 =>
      exact legacyContactInfo_canonical.variant (fun _ _ => rfl) fun data => by
        cases data <;> simp [CrdsData.tag, CrdsData.InRange]
    case h_7 =>
      exact legacyVersion_canonical.variant (fun _ _ => rfl) fun data => by
        cases data <;> simp [CrdsData.tag, CrdsData.InRange]
    case h_8 =>
      exact version2_canonical.variant (fun _ _ => rfl) fun data => by
        cases data <;> simp [CrdsData.tag, CrdsData.InRange]
    case h_12 =>
      exact (contactInfo_canonical lengths).variant (fun _ _ => rfl) fun data => by
        cases data <;> simp [CrdsData.tag, CrdsData.InRange]
    case h_13 =>
      refine .refused fun data allowed => ?_
      rcases allowed with ⟨⟨_, rfl⟩, _⟩
      cases data <;> contradiction
    all_goals
      exact .single rfl fun data => by cases data <;> simp [CrdsData.tag, CrdsData.InRange]
  refine tagged.record (fun _ => rfl) fun data => and_iff_right ?_
  cases data <;> simp [CrdsData.tag]

/-- The decoder of gossip data accepts exactly the messages that begin with the encoding of a value
whose integers fit, and a message begins with that of one value only. -/
theorem crdsData_unambiguous (shortU16 : Reader Nat) (writeShortU16 : Nat → List Byte)
    (lengths : Canonical shortU16 writeShortU16 (· < 2 ^ 16)) :
    (∀ message data, (crdsData shortU16).deserialize message = some data ↔
      data.InRange ∧ data.write writeShortU16 <+: message) ∧
    ∀ first second : CrdsData, first.InRange → second.InRange → ∀ firstRest secondRest,
      first.write writeShortU16 ++ firstRest = second.write writeShortU16 ++ secondRest →
        first = second ∧ firstRest = secondRest :=
  ⟨fun _ _ => (canonical_crdsData lengths).deserialize,
    fun _ _ firstInRange secondInRange _ _ same =>
      (canonical_crdsData lengths).write_inj firstInRange secondInRange same⟩

theorem crdsData_unambiguous_varint :
    (∀ message data, (crdsData (varint 16)).deserialize message = some data ↔
      data.InRange ∧ data.write writeVarint <+: message) ∧
    ∀ first second : CrdsData, first.InRange → second.InRange → ∀ firstRest secondRest,
      first.write writeVarint ++ firstRest = second.write writeVarint ++ secondRest →
        first = second ∧ firstRest = secondRest :=
  crdsData_unambiguous (varint 16) writeVarint (canonical_varint (by decide))

end Stakenet.History
