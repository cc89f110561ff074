import Mathlib

/-!
# The hinted-handoff frame codec

`marshalWrite` and `unmarshalWrite` (`services/meta/store.go`, package `hh`). A frame is the
shard ID as eight big-endian bytes, then each point's line-protocol text followed by a
newline. Points and their parser belong to `influxdb/models`, outside this repository: the
point type, `Point.String` and `models.ParsePoints` are parameters here.

Every frame `marshalWrite` builds is at least eight bytes long (`marshalWrite_length`), so the
only way `unmarshalWrite` rejects one is through the parser (`unmarshalWrite_marshalWrite`).
`binary.BigEndian.Uint64` reads back every shard ID `PutUint64` wrote
(`bigEndianUint64_putUint64`), so a frame decodes to its shard ID and points whenever the
points' text parses back to them (`marshalWrite_round_trip`). The other way round, `PutUint64`
writes back every eight bytes `Uint64` read (`putUint64_bigEndianUint64`), so the frames
`unmarshalWrite` accepts are exactly a shard ID's eight bytes followed by text the parser
accepts (`unmarshalWrite_ok_iff`).
-/

namespace Chronus.HH

/-- A queue element: the bytes of one encoded shard write. -/
abbrev Frame := List UInt8

/-- `binary.BigEndian.PutUint64`: the eight bytes of `v`, most significant first. -/
def putUint64 (v : UInt64) : List UInt8 :=
  ([56, 48, 40, 32, 24, 16, 8, 0] : List UInt64).map fun shift => (v >>> shift).toUInt8

/-- `binary.BigEndian.Uint64`: the value of the first eight bytes, most significant first. -/
def bigEndianUint64 (b : List UInt8) : UInt64 :=
  (b.take 8).foldl (fun acc byte => (acc <<< 8) ||| byte.toUInt64) 0

@[simp] theorem putUint64_length (v : UInt64) : (putUint64 v).length = 8 := by
  simp [putUint64]

/-! ## The shard ID's eight bytes -/

theorem UInt64.toNat_shiftLeft_or_byte (acc : UInt64) (byte : UInt8) :
    ((acc <<< 8) ||| byte.toUInt64).toNat = 2 ^ 8 * (acc.toNat % 2 ^ 56) + byte.toNat := by
  have shifted : (acc <<< 8).toNat = 2 ^ 8 * (acc.toNat % 2 ^ 56) := by
    show (acc.toBitVec <<< (UInt64.mod 8 64).toBitVec).toNat = _
    rw [BitVec.shiftLeft_eq', BitVec.toNat_shiftLeft, Nat.shiftLeft_eq]
    show acc.toNat * 2 ^ 8 % 2 ^ 64 = _
    omega
  show (acc <<< 8).toNat ||| byte.toNat = _
  rw [shifted, Nat.mul_add_lt_is_or (show byte.toNat < 2 ^ 8 from byte.toBitVec.isLt)]

theorem UInt64.toNat_toUInt8_shiftRight (v k : UInt64) (small : k.toNat < 64) :
    (v >>> k).toUInt8.toNat = v.toNat / 2 ^ k.toNat % 2 ^ 8 := by
  have shifted : (v >>> k).toNat = v.toNat / 2 ^ k.toNat := by
    show (v.toBitVec >>> (UInt64.mod k 64).toBitVec).toNat = _
    rw [BitVec.ushiftRight_eq', BitVec.toNat_ushiftRight, Nat.shiftRight_eq_div_pow]
    show v.toNat / 2 ^ (k.toNat % 64) = _
    rw [Nat.mod_eq_of_lt small]
  simp [UInt64.toUInt8, UInt8.toNat, UInt8.ofNat, shifted]

/-- One byte of the big-endian decoding: the bits above `s + 8`, shifted up by a byte, plus the
byte at `s`, are the bits above `s`. -/
theorem div_two_pow_byte {n : Nat} (small : n < 2 ^ 64) {s k : Nat} (next : s + 8 = k)
    (le : k ≤ 64) : 2 ^ 8 * (n / 2 ^ k % 2 ^ 56) + n / 2 ^ s % 2 ^ 8 = n / 2 ^ s := by
  subst next
  have top : n / 2 ^ (s + 8) < 2 ^ 56 := by
    rw [Nat.div_lt_iff_lt_mul (by positivity), ← pow_add]
    exact small.trans_le (Nat.pow_le_pow_right (by norm_num) (by omega))
  rw [Nat.mod_eq_of_lt top, pow_add, ← Nat.div_div_eq_div_mul, Nat.div_add_mod]

/-- `binary.BigEndian.Uint64` reads back every value `PutUint64` wrote. -/
theorem bigEndianUint64_putUint64 (v : UInt64) : bigEndianUint64 (putUint64 v) = v := by
  apply UInt64.eq_of_toBitVec_eq
  apply BitVec.eq_of_toNat_eq
  show (bigEndianUint64 (putUint64 v)).toNat = v.toNat
  have zero : (0 : UInt64).toNat = v.toNat / 2 ^ 64 := (Nat.div_eq_of_lt v.toNat_lt).symm
  simp only [bigEndianUint64, putUint64, List.map, List.take, List.foldl,
    UInt64.toNat_shiftLeft_or_byte, zero]
  simp (disch := decide) only [UInt64.toNat_toUInt8_shiftRight, UInt64.toNat_ofNat, UInt64.size,
    Nat.reduceMod]
  simp (disch := omega) only [div_two_pow_byte v.toNat_lt]
  simp

/-- `PutUint64` writes back every eight bytes `binary.BigEndian.Uint64` read. -/
theorem putUint64_bigEndianUint64 :
    ∀ b : List UInt8, b.length = 8 → putUint64 (bigEndianUint64 b) = b
  | [b0, b1, b2, b3, b4, b5, b6, b7], _ => by
    have h0 := b0.toNat_lt; have h1 := b1.toNat_lt; have h2 := b2.toNat_lt
    have h3 := b3.toNat_lt; have h4 := b4.toNat_lt; have h5 := b5.toNat_lt
    have h6 := b6.toNat_lt; have h7 := b7.toNat_lt
    have value : (bigEndianUint64 [b0, b1, b2, b3, b4, b5, b6, b7]).toNat =
        b0.toNat * 2 ^ 56 + b1.toNat * 2 ^ 48 + b2.toNat * 2 ^ 40 + b3.toNat * 2 ^ 32 +
          b4.toNat * 2 ^ 24 + b5.toNat * 2 ^ 16 + b6.toNat * 2 ^ 8 + b7.toNat := by
      simp only [bigEndianUint64, List.take, List.foldl, UInt64.toNat_shiftLeft_or_byte]
      simp
      omega
    simp only [putUint64, List.map, List.cons.injEq, UInt8.ext_iff]
    simp (disch := decide) only [UInt64.toNat_toUInt8_shiftRight, UInt64.toNat_ofNat,
      UInt64.size, Nat.reduceMod, value, and_true]
    refine ⟨?_, ?_, ?_, ?_, ?_, ?_, ?_, ?_⟩ <;> omega

section Codec

variable {Point : Type} (pointString : Point → String)
  (parsePoints : List UInt8 → Except String (List Point))

/-- `marshalWrite`: the shard ID, then `p.String()` and a newline (byte 10) per point. -/
def marshalWrite (shardID : UInt64) (points : List Point) : Frame :=
  points.foldl (fun b p => b ++ (pointString p).toUTF8.data.toList ++ [10]) (putUint64 shardID)

/-- `unmarshalWrite`: frames under eight bytes are rejected; the rest goes to the parser. -/
def unmarshalWrite (b : Frame) : Except String (UInt64 × List Point) :=
  if b.length < 8 then .error ("too short: len = " ++ toString b.length)
  else
    match parsePoints (b.drop 8) with
    | .error err => .error err
    | .ok points => .ok (bigEndianUint64 (b.take 8), points)

/-- The text `marshalWrite` appends after the shard ID. -/
def pointsText (points : List Point) : List UInt8 :=
  points.flatMap fun p => (pointString p).toUTF8.data.toList ++ [10]

theorem marshalWrite_foldl (b : List UInt8) (points : List Point) :
    points.foldl (fun b p => b ++ (pointString p).toUTF8.data.toList ++ [10]) b =
      b ++ pointsText pointString points := by
  induction points generalizing b with
  | nil => simp [pointsText]
  | cons p rest ih => rw [List.foldl_cons, ih]; simp [pointsText]

/-- `marshalWrite`'s loop appends the points' text to the shard ID's bytes. -/
theorem marshalWrite_eq (shardID : UInt64) (points : List Point) :
    marshalWrite pointString shardID points = putUint64 shardID ++ pointsText pointString points :=
  marshalWrite_foldl pointString _ points

theorem marshalWrite_length (shardID : UInt64) (points : List Point) :
    8 ≤ (marshalWrite pointString shardID points).length := by
  simp [marshalWrite_eq]

/-- Decoding a frame `marshalWrite` built parses exactly the points' text, and reads the
shard ID back from the first eight bytes. -/
theorem unmarshalWrite_marshalWrite (shardID : UInt64) (points : List Point) :
    unmarshalWrite parsePoints (marshalWrite pointString shardID points) =
      match parsePoints (pointsText pointString points) with
      | .error err => .error err
      | .ok parsed => .ok (bigEndianUint64 (putUint64 shardID), parsed) := by
  have short : ¬ (marshalWrite pointString shardID points).length < 8 :=
    Nat.not_lt.mpr (marshalWrite_length pointString shardID points)
  simp only [unmarshalWrite, short, if_false, marshalWrite_eq]
  simp

/-- A frame decodes to its shard ID and its points whenever the points' line-protocol text
parses back to them. -/
theorem marshalWrite_round_trip (shardID : UInt64) (points : List Point)
    (parses : parsePoints (pointsText pointString points) = .ok points) :
    unmarshalWrite parsePoints (marshalWrite pointString shardID points) =
      .ok (shardID, points) := by
  rw [unmarshalWrite_marshalWrite, parses, bigEndianUint64_putUint64]

/-- `unmarshalWrite` accepts exactly the frames that are a shard ID's eight bytes followed by
text the parser accepts, and returns that shard ID with the parsed points. -/
theorem unmarshalWrite_ok_iff (b : Frame) (shardID : UInt64) (points : List Point) :
    unmarshalWrite parsePoints b = .ok (shardID, points) ↔
      ∃ text, b = putUint64 shardID ++ text ∧ parsePoints text = .ok points := by
  constructor
  · intro ok
    unfold unmarshalWrite at ok
    split at ok
    · cases ok
    · rename_i long
      split at ok
      · cases ok
      · rename_i parsed
        cases ok
        refine ⟨b.drop 8, ?_, parsed⟩
        rw [putUint64_bigEndianUint64 _ (by simp only [List.length_take]; omega),
          List.take_append_drop]
  · rintro ⟨text, rfl, parses⟩
    simp [unmarshalWrite, parses, bigEndianUint64_putUint64]

end Codec

/-- The largest shard ID with two points, under a parser that reads one point per line. -/
theorem marshalWrite_round_trip_max :
    (fun b : List UInt8 => Except.ok (List.replicate (b.count 10) ()) : _ → Except String _)
        (pointsText (fun _ : Unit => "cpu value=1") [(), ()]) = .ok [(), ()] ∧
      unmarshalWrite
        (fun b : List UInt8 => Except.ok (List.replicate (b.count 10) ()) : _ → Except String _)
        (marshalWrite (fun _ : Unit => "cpu value=1") 18446744073709551615 [(), ()]) =
        .ok (18446744073709551615, [(), ()]) :=
  ⟨rfl, marshalWrite_round_trip _ _ _ _ rfl⟩

end Chronus.HH
