import LorePia.Base.Utf8Bytes
import LorePia.Content.MessagePack
import Mathlib.Tactic.IntervalCases

/-!
# MessagePack decoding is exact

`Encodes bytes value` is the MessagePack format: one constructor for each family of it, with the markers of
the family in a table. The decoder is sound and complete for it (`value_sound`, `value_complete`) within the
limits of depth and nodes: it counts every node of the value, so the early refusal of a collection refuses
nothing that the count would accept.
-/

namespace LorePia

open Base

/-! ## The format -/

/-- The families that state a length. -/
inductive PackFamily
  | str
  | bin
  | ext
  | array
  | map
deriving DecidableEq

/-- The families with a length of a width in bytes, and their markers. -/
def lengthFormats : List (PackFamily × Nat × UInt8) :=
  [(.bin, 1, 0xc4), (.bin, 2, 0xc5), (.bin, 4, 0xc6), (.ext, 1, 0xc7), (.ext, 2, 0xc8), (.ext, 4, 0xc9),
    (.str, 1, 0xd9), (.str, 2, 0xda), (.str, 4, 0xdb), (.array, 2, 0xdc), (.array, 4, 0xdd), (.map, 2, 0xde),
    (.map, 4, 0xdf)]

/-- The extensions of a fixed length, and their markers. -/
def fixedExtensions : List (Nat × UInt8) := [(1, 0xd4), (2, 0xd5), (4, 0xd6), (8, 0xd7), (16, 0xd8)]

/-- The unsigned integers by their widths in bytes, and their markers. -/
def unsignedFormats : List (Nat × UInt8) := [(1, 0xcc), (2, 0xcd), (4, 0xce), (8, 0xcf)]

/-- The signed integers by their widths in bytes, and their markers. -/
def signedFormats : List (Nat × UInt8) := [(1, 0xd0), (2, 0xd1), (4, 0xd2), (8, 0xd3)]

/-- The bytes that state the length of a family. -/
inductive Header : PackFamily → List UInt8 → Nat → Prop
  | fixmap {n : Nat} (h : n < 16) : Header .map [UInt8.ofNat (0x80 + n)] n
  | fixarray {n : Nat} (h : n < 16) : Header .array [UInt8.ofNat (0x90 + n)] n
  | fixstr {n : Nat} (h : n < 32) : Header .str [UInt8.ofNat (0xa0 + n)] n
  | fixext {n : Nat} {marker : UInt8} (h : (n, marker) ∈ fixedExtensions) : Header .ext [marker] n
  | wide {family : PackFamily} {width n : Nat} {marker : UInt8} (h : (family, width, marker) ∈ lengthFormats)
      (hn : n < 256 ^ width) : Header family (marker :: beBytes width n) n

/-- The bytes are a MessagePack encoding of the value; an extension is read as null. -/
inductive Encodes : List UInt8 → MessagePackValue → Prop
  | nil : Encodes [0xc0] .null
  | falsity : Encodes [0xc2] (.bool false)
  | truth : Encodes [0xc3] (.bool true)
  | positive {n : Nat} (h : n < 128) : Encodes [UInt8.ofNat n] (.u64 n)
  | negative {n : Nat} (h : n < 32) : Encodes [UInt8.ofNat (0xe0 + n)] (.i64 (n - 32))
  | unsigned {width n : Nat} {marker : UInt8} (h : (width, marker) ∈ unsignedFormats) (hn : n < 256 ^ width) :
      Encodes (marker :: beBytes width n) (.u64 n)
  | signed {width : Nat} {n : Int} {marker : UInt8} (h : (width, marker) ∈ signedFormats)
      (hlow : -2 ^ (8 * width - 1) ≤ n) (hhigh : n < 2 ^ (8 * width - 1)) :
      Encodes (marker :: beBytes width (n % 2 ^ (8 * width)).toNat) (.i64 n)
  | float32 (bits : UInt32) : Encodes (0xca :: beBytes 4 bits.toNat) (.f64 (Float32.ofBits bits).toFloat)
  | float64 (bits : UInt64) : Encodes (0xcb :: beBytes 8 bits.toNat) (.f64 (Float.ofBits bits))
  | str {header : List UInt8} {text : String} (h : Header .str header (utf8Bytes text).length) :
      Encodes (header ++ utf8Bytes text) (.string text)
  | bin {header data : List UInt8} (h : Header .bin header data.length) :
      Encodes (header ++ data) (.binary data)
  | ext {header data : List UInt8} (kind : UInt8) (h : Header .ext header data.length) :
      Encodes (header ++ kind :: data) .null
  | array {header : List UInt8} {parts : List (List UInt8)} {values : List MessagePackValue}
      (h : Header .array header values.length) (hvalues : List.Forall₂ Encodes parts values) :
      Encodes (header ++ parts.flatten) (.array values)
  | map {header : List UInt8} {keys items : List (List UInt8)}
      {values : List (MessagePackValue × MessagePackValue)} (h : Header .map header values.length)
      (hkeys : List.Forall₂ Encodes keys (values.map Prod.fst))
      (hitems : List.Forall₂ Encodes items (values.map Prod.snd)) :
      Encodes (header ++ (List.zipWith (· ++ ·) keys items).flatten) (.map values)

mutual

/-- The nodes of a value: itself, and those of its parts. -/
def MessagePackValue.nodes : MessagePackValue → Nat
  | .array values => nodesOfAll values + 1
  | .map values => nodesOfPairs values + 1
  | _ => 1

def nodesOfAll : List MessagePackValue → Nat
  | [] => 0
  | value :: values => value.nodes + nodesOfAll values

def nodesOfPairs : List (MessagePackValue × MessagePackValue) → Nat
  | [] => 0
  | (key, item) :: values => key.nodes + item.nodes + nodesOfPairs values

end

mutual

/-- How deep a value nests. -/
def MessagePackValue.nesting : MessagePackValue → Nat
  | .array values => nestingOfAll values
  | .map values => nestingOfPairs values
  | _ => 0

def nestingOfAll : List MessagePackValue → Nat
  | [] => 0
  | value :: values => max (value.nesting + 1) (nestingOfAll values)

def nestingOfPairs : List (MessagePackValue × MessagePackValue) → Nat
  | [] => 0
  | (key, item) :: values => max (max (key.nesting + 1) (item.nesting + 1)) (nestingOfPairs values)

end

/-- Every family states its length in at least one byte. -/
theorem Header.length_pos {family : PackFamily} {header : List UInt8} {n : Nat}
    (h : Header family header n) : 0 < header.length := by
  cases h <;> exact Nat.succ_pos _

section
variable {levels : Nat}
  (hlevel : ∀ {bytes value}, Encodes bytes value → value.nesting < levels → value.nodes ≤ bytes.length)
include hlevel

theorem nodesOfAll_le : ∀ {parts : List (List UInt8)} {values : List MessagePackValue},
    List.Forall₂ Encodes parts values → nestingOfAll values ≤ levels →
    nodesOfAll values ≤ parts.flatten.length
  | _, _, .nil, _ => Nat.le_refl 0
  | part :: parts, value :: values, .cons h hs, hnesting => by
    rw [nestingOfAll, Nat.max_le] at hnesting
    have hhead := hlevel h hnesting.1
    have htail := nodesOfAll_le hs hnesting.2
    rw [nodesOfAll, List.flatten_cons, List.length_append]
    omega

theorem nodesOfPairs_le : ∀ {keys items : List (List UInt8)}
    {values : List (MessagePackValue × MessagePackValue)},
    List.Forall₂ Encodes keys (values.map Prod.fst) → List.Forall₂ Encodes items (values.map Prod.snd) →
    nestingOfPairs values ≤ levels →
    nodesOfPairs values ≤ (List.zipWith (· ++ ·) keys items).flatten.length
  | _, _, [], _, _, _ => Nat.zero_le _
  | key :: keys, item :: items, (k, i) :: values, .cons hk hks, .cons hi his, hnesting => by
    rw [nestingOfPairs, Nat.max_le, Nat.max_le] at hnesting
    have hkey : k.nodes ≤ key.length := hlevel hk hnesting.1.1
    have hitem : i.nodes ≤ item.length := hlevel hi hnesting.1.2
    have htail := nodesOfPairs_le hks his hnesting.2
    rw [nodesOfPairs, List.zipWith_cons_cons, List.flatten_cons, List.length_append, List.length_append]
    omega

end

/-- Every node takes a byte. -/
theorem Encodes.nodes_le : ∀ (levels : Nat) {bytes : List UInt8} {value : MessagePackValue},
    Encodes bytes value → value.nesting < levels → value.nodes ≤ bytes.length
  | 0, _, _, _, hnesting => absurd hnesting (Nat.not_lt_zero _)
  | levels + 1, _, _, h, hnesting => by
    cases h with
    | array hheader hvalues =>
      have hpos := hheader.length_pos
      have hall := nodesOfAll_le (Encodes.nodes_le levels) hvalues (Nat.lt_succ_iff.1 hnesting)
      rw [MessagePackValue.nodes, List.length_append]
      omega
    | map hheader hkeys hitems =>
      have hpos := hheader.length_pos
      have hall := nodesOfPairs_le (Encodes.nodes_le levels) hkeys hitems (Nat.lt_succ_iff.1 hnesting)
      rw [MessagePackValue.nodes, List.length_append]
      omega
    | str hheader | bin hheader | ext kind hheader =>
      have hpos := hheader.length_pos
      show 1 ≤ _
      rw [List.length_append]
      omega
    | _ => exact Nat.succ_pos _

/-! ## Signed numbers -/

theorem two_pow_eq {bits : Nat} (h : 0 < bits) : (2 : Int) ^ bits = 2 * 2 ^ (bits - 1) := by
  obtain ⟨b, rfl⟩ := Nat.exists_eq_succ_of_ne_zero (Nat.ne_of_gt h)
  rw [Nat.succ_sub_one, Int.pow_succ, Int.mul_comm]

/-- The signed value of the bits is in the range of the width, and has the bits. -/
theorem castSigned_range {bits n : Nat} (hbits : 0 < bits) (hn : n < 2 ^ bits) :
    -2 ^ (bits - 1) ≤ castSigned bits n ∧ castSigned bits n < 2 ^ (bits - 1) ∧
      (castSigned bits n % 2 ^ bits).toNat = n := by
  have hpow := two_pow_eq hbits
  have hn' : (n : Int) < 2 ^ bits := by exact_mod_cast hn
  have hhalf : (n < 2 ^ (bits - 1)) ↔ (n : Int) < 2 ^ (bits - 1) := by exact_mod_cast Iff.rfl
  unfold castSigned
  simp only [hhalf]
  generalize (2 : Int) ^ (bits - 1) = half at *
  rw [hpow] at hn' ⊢
  split
  · rw [Int.emod_eq_of_lt (by omega) (by omega)]
    omega
  · rw [Int.sub_emod_right, Int.emod_eq_of_lt (by omega) (by omega)]
    omega

/-- A number in the range of the width is the signed value of its bits. -/
theorem castSigned_of_range {bits : Nat} {n : Int} (hbits : 0 < bits) (hlow : -2 ^ (bits - 1) ≤ n)
    (hhigh : n < 2 ^ (bits - 1)) :
    castSigned bits (n % 2 ^ bits).toNat = n ∧ (n % 2 ^ bits).toNat < 2 ^ bits := by
  have hpow := two_pow_eq hbits
  have hlt : ∀ k : Nat, k < 2 ^ bits ↔ (k : Int) < 2 ^ bits := fun k => by exact_mod_cast Iff.rfl
  have hhalf : ∀ k : Nat, k < 2 ^ (bits - 1) ↔ (k : Int) < 2 ^ (bits - 1) :=
    fun k => by exact_mod_cast Iff.rfl
  unfold castSigned
  simp only [hhalf, hlt]
  generalize (2 : Int) ^ (bits - 1) = half at *
  rw [hpow]
  by_cases hn : 0 ≤ n
  · rw [Int.emod_eq_of_lt hn (by omega), Int.toNat_of_nonneg hn, if_pos hhigh]
    omega
  · rw [← Int.add_emod_right, Int.emod_eq_of_lt (by omega) (by omega), Int.toNat_of_nonneg (by omega),
      if_neg (by omega)]
    omega

theorem pow256 (width : Nat) : 256 ^ width = 2 ^ (8 * width) := by
  rw [Nat.pow_mul]

/-! ## Extents -/

/-- Bytes that hold some nodes, each of which takes a byte. -/
@[ext]
structure Extent where
  bytes : List UInt8
  nodes : Nat
  nodes_le : nodes ≤ bytes.length

instance : Monoid Extent where
  one := ⟨[], 0, Nat.le_refl 0⟩
  mul u v := ⟨u.bytes ++ v.bytes, u.nodes + v.nodes, by
    have hu := u.nodes_le
    have hv := v.nodes_le
    rw [List.length_append]
    omega⟩
  mul_assoc u v w := Extent.ext (List.append_assoc _ _ _) (Nat.add_assoc _ _ _)
  one_mul w := Extent.ext (List.nil_append _) (Nat.zero_add _)
  mul_one w := Extent.ext (List.append_nil _) (Nat.add_zero _)

@[simp] theorem Extent.bytes_one : (1 : Extent).bytes = [] := rfl
@[simp] theorem Extent.nodes_one : (1 : Extent).nodes = 0 := rfl
@[simp] theorem Extent.bytes_mul (u v : Extent) : (u * v).bytes = u.bytes ++ v.bytes := rfl
@[simp] theorem Extent.nodes_mul (u v : Extent) : (u * v).nodes = u.nodes + v.nodes := rfl

theorem Extent.bytes_prod : ∀ ws : List Extent, ws.prod.bytes = (ws.map Extent.bytes).flatten
  | [] => rfl
  | w :: ws => by
    rw [List.prod_cons, bytes_mul, bytes_prod ws, List.map_cons, List.flatten_cons]

theorem Extent.nodes_prod : ∀ ws : List Extent, ws.prod.nodes = (ws.map Extent.nodes).sum
  | [] => rfl
  | w :: ws => by
    rw [List.prod_cons, nodes_mul, nodes_prod ws, List.map_cons, List.sum_cons]

section
variable (parser : MessagePackParser)

/-- The limits are kept, and every node took a byte. -/
structure ParserState.Good (s : ParserState) : Prop where
  read : s.nodes ≤ s.position
  inside : s.position ≤ parser.bytes.length
  counted : s.nodes ≤ parser.maxNodes

/-- The extent stands at the position, and the counters move over it. -/
structure Consumes (s : ParserState) (w : Extent) (s' : ParserState) : Prop where
  good : s.Good parser
  bytes : slice parser.bytes s.position w.bytes.length = w.bytes
  position : s'.position = s.position + w.bytes.length
  nodes : s'.nodes = s.nodes + w.nodes
  inside : s'.position ≤ parser.bytes.length
  counted : s'.nodes ≤ parser.maxNodes

variable {parser}

theorem Consumes.good_right {s s' : ParserState} {w : Extent} (h : Consumes parser s w s') :
    s'.Good parser := by
  have hread := h.good.read
  have hnodes := w.nodes_le
  exact ⟨by rw [h.nodes, h.position]; omega, h.inside, h.counted⟩

theorem consumes_one {s s' : ParserState} : Consumes parser s 1 s' ↔ s.Good parser ∧ s = s' := by
  constructor
  · intro h
    obtain ⟨position, nodes⟩ := s
    obtain ⟨position', nodes'⟩ := s'
    have hposition := h.position
    have hnodes := h.nodes
    simp only [Extent.bytes_one, Extent.nodes_one, List.length_nil, Nat.add_zero] at hposition hnodes
    rw [hposition, hnodes]
    exact ⟨h.good, rfl⟩
  · rintro ⟨hgood, rfl⟩
    exact ⟨hgood, List.take_zero, rfl, rfl, hgood.inside, hgood.counted⟩

theorem consumes_mul {s s' : ParserState} {u v : Extent} :
    Consumes parser s (u * v) s' ↔ ∃ t, Consumes parser s u t ∧ Consumes parser t v s' := by
  constructor
  · intro h
    have hlength : (u * v).bytes.length = u.bytes.length + v.bytes.length := List.length_append
    have hposition := h.position
    have hinside := h.inside
    have hnodes := h.nodes
    have hcounted := h.counted
    rw [Extent.nodes_mul] at hnodes
    rw [hlength] at hposition
    have hbytes := h.bytes
    rw [hlength, slice_add, Extent.bytes_mul] at hbytes
    obtain ⟨hu, hv⟩ := List.append_inj hbytes (length_slice (by omega))
    have hfirst : Consumes parser s u ⟨s.position + u.bytes.length, s.nodes + u.nodes⟩ :=
      ⟨h.good, hu, rfl, rfl, by dsimp only; omega, by dsimp only; omega⟩
    exact ⟨_, hfirst, hfirst.good_right, hv, by dsimp only; omega, by dsimp only; omega, hinside, hcounted⟩
  · rintro ⟨t, hu, hv⟩
    refine ⟨hu.good, ?_, ?_, ?_, hv.inside, hv.counted⟩
    · rw [Extent.bytes_mul, List.length_append, slice_add, hu.bytes, ← hu.position, hv.bytes]
    · rw [hv.position, hu.position, Extent.bytes_mul, List.length_append, Nat.add_assoc]
    · rw [hv.nodes, hu.nodes, Extent.nodes_mul, Nat.add_assoc]

variable (parser)

/-- The extents that a parser consumes. -/
def MessagePackParser.trace : Trace ParserState Extent where
  Good := ParserState.Good parser
  Step := Consumes parser
  step_one := consumes_one
  step_mul := consumes_mul

/-! ## The primitives -/

/-- Bytes without nodes. -/
def Raw (len : Nat) (w : Extent) (bytes : List UInt8) : Prop :=
  w.bytes = bytes ∧ w.nodes = 0 ∧ bytes.length = len

/-- A big-endian number. -/
def BigEndian (width : Nat) (w : Extent) (n : Nat) : Prop :=
  w.bytes = beBytes width n ∧ w.nodes = 0 ∧ n < 256 ^ width

theorem take_run (len : Nat) (s : ParserState) : (parser.take len).run s =
    if s.position + len ≤ parser.bytes.length then
      .ok (slice parser.bytes s.position len, { s with position := s.position + len })
    else .error (parser.error "is truncated") := by
  have hlength := parser.length_lt
  have hend : (checkedAdd s.position len).filter (· ≤ parser.bytes.length) =
      if s.position + len ≤ parser.bytes.length then some (s.position + len) else none := by
    unfold checkedAdd usizeMax
    split
    · rw [Option.filter_some]
      simp only [decide_eq_true_eq]
    · rw [if_neg (by omega)]
      rfl
  unfold MessagePackParser.take
  rw [StateT.run_bind, StateT.run_get, pure_bind]
  dsimp only
  rw [hend]
  by_cases hroom : s.position + len ≤ parser.bytes.length
  · rw [if_pos hroom, if_pos hroom]
    dsimp only
    rw [Nat.add_sub_cancel_left]
    rfl
  · rw [if_neg hroom, if_neg hroom]
    rfl

theorem take_run_eq_ok {len : Nat} {s s' : ParserState} {bytes : List UInt8} :
    (parser.take len).run s = .ok (bytes, s') ↔ s.position + len ≤ parser.bytes.length ∧
      slice parser.bytes s.position len = bytes ∧ s' = { s with position := s.position + len } := by
  rw [take_run]
  by_cases hroom : s.position + len ≤ parser.bytes.length
  · rw [if_pos hroom, Except.ok.injEq, Prod.mk.injEq]
    exact ⟨fun h => ⟨hroom, h.1, h.2.symm⟩, fun h => ⟨h.2.1, h.2.2.symm⟩⟩
  · rw [if_neg hroom]
    exact ⟨fun h => (by cases h), fun h => absurd h.1 hroom⟩

theorem take_sound (len : Nat) : Sound parser.trace (parser.take len) (Raw len) := by
  intro s bytes s' hgood hrun
  obtain ⟨hroom, rfl, rfl⟩ := (take_run_eq_ok parser).1 hrun
  have hlength := length_slice hroom
  refine ⟨⟨slice parser.bytes s.position len, 0, Nat.zero_le _⟩, ⟨rfl, rfl, hlength⟩, hgood, ?_, ?_, rfl, hroom,
    hgood.counted⟩
  · exact congrArg (slice parser.bytes s.position) hlength
  · exact congrArg (s.position + ·) hlength.symm

theorem take_complete (len : Nat) : Complete parser.trace (parser.take len) (Raw len) := by
  rintro s w bytes s' ⟨rfl, hnodes, rfl⟩ hstep
  obtain ⟨position, nodes⟩ := s'
  have hinside := hstep.inside
  have hcount := hstep.nodes
  have hposition := hstep.position
  dsimp only at hinside hcount hposition
  refine (take_run_eq_ok parser).2 ⟨by omega, hstep.bytes, ?_⟩
  rw [hposition, hcount, hnodes, Nat.add_zero]

/-- A byte, or a panic that does not happen: the slice has one byte. -/
theorem byte_eq : parser.byte = parser.take 1 >>= fun bytes => pure (bytes.headD 0) := by
  funext s
  show (parser.byte).run s = StateT.run _ s
  unfold MessagePackParser.byte
  rw [StateT.run_bind, StateT.run_bind, take_run]
  split
  · rename_i hroom
    have hlength := length_slice hroom
    rw [ok_bind, ok_bind]
    cases hbytes : slice parser.bytes s.position 1 with
    | nil =>
      rw [hbytes] at hlength
      cases hlength
    | cons byte rest => rfl
  · rfl

theorem unsigned_eq (width : Nat) :
    parser.unsigned width = parser.take width >>= fun bytes => pure (beNat bytes) := by
  funext s
  show (parser.unsigned width).run s = StateT.run _ s
  unfold MessagePackParser.unsigned
  rw [StateT.run_bind, StateT.run_bind, take_run]
  split
  · rename_i hroom
    rw [ok_bind, ok_bind]
    dsimp only
    rw [if_pos (length_slice hroom)]
  · rfl

/-- A length in one byte is a number of one byte. -/
theorem byte_then {α : Type} (f : Nat → Parse α) :
    (parser.byte >>= fun byte => f byte.toNat) = parser.unsigned 1 >>= f := by
  funext s
  show StateT.run _ s = StateT.run _ s
  rw [byte_eq, unsigned_eq, bind_assoc, bind_assoc, StateT.run_bind, StateT.run_bind, take_run]
  split
  · rename_i hroom
    have hlength := length_slice hroom
    rw [ok_bind, ok_bind, pure_bind, pure_bind]
    dsimp only
    obtain ⟨byte, hbyte⟩ := List.length_eq_one_iff.1 hlength
    rw [hbyte]
    congr 2
    rw [beNat, List.foldl_cons, List.foldl_nil, Nat.zero_mul, Nat.zero_add]
    rfl
  · rfl

theorem unsigned_sound (width : Nat) : Sound parser.trace (parser.unsigned width) (BigEndian width) := by
  rw [unsigned_eq]
  refine ((take_sound parser width).bind fun bytes => .pure (beNat bytes)).mono ?_
  rintro w n ⟨bytes, u, v, ⟨hu, hnodes, hlength⟩, ⟨rfl, rfl⟩, rfl⟩
  refine ⟨?_, ?_, beNat_lt hlength⟩
  · rw [mul_one, hu, beBytes_beNat hlength]
  · rw [mul_one, hnodes]

theorem unsigned_complete (width : Nat) :
    Complete parser.trace (parser.unsigned width) (BigEndian width) := by
  rw [unsigned_eq]
  rintro s w n s' ⟨hw, hnodes, hn⟩ hstep
  refine ((take_complete parser width).bind fun bytes => .pure (beNat bytes)) ?_ hstep
  exact ⟨w.bytes, w, 1, ⟨rfl, hnodes, by rw [hw, length_beBytes]⟩, ⟨rfl, by rw [hw, beNat_beBytes hn]⟩,
    (mul_one w).symm⟩

/-! ## The families with a length -/

/-- The value of an extent, at some levels below the limit. -/
def Denotes (levels : Nat) (w : Extent) (value : MessagePackValue) : Prop :=
  Encodes w.bytes value ∧ w.nodes = value.nodes ∧ value.nesting < levels

/-- A key and its item. -/
def DenotesPair (levels : Nat) (w : Extent) (pair : MessagePackValue × MessagePackValue) : Prop :=
  ∃ u v, Denotes levels u pair.1 ∧ Denotes levels v pair.2 ∧ w = u * v

/-- What follows the header of a family. -/
def Body (levels : Nat) : PackFamily → Nat → Extent → MessagePackValue → Prop
  | .str, n, w, value => ∃ text, value = .string text ∧ w.bytes = utf8Bytes text ∧ w.nodes = 0 ∧
      (utf8Bytes text).length = n
  | .bin, n, w, value => ∃ data, value = .binary data ∧ w.bytes = data ∧ w.nodes = 0 ∧ data.length = n
  | .ext, n, w, value => ∃ kind data, value = .null ∧ w.bytes = kind :: data ∧ w.nodes = 0 ∧ data.length = n
  | .array, n, w, value => ∃ values, value = .array values ∧ Times (Denotes levels) n w values
  | .map, n, w, value => ∃ values, value = .map values ∧ Times (DenotesPair levels) n w values

/-- The method that reads the family. -/
def MessagePackParser.body (value : Parse MessagePackValue) : PackFamily → Nat → Parse MessagePackValue
  | .str => parser.string
  | .bin => parser.binary
  | .ext => parser.extension
  | .array => parser.array value
  | .map => parser.map value

theorem fromUTF8?_eq_some {bytes : List UInt8} {text : String} :
    String.fromUTF8? ⟨bytes.toArray⟩ = some text ↔ utf8Bytes text = bytes := by
  unfold String.fromUTF8? utf8Bytes
  constructor
  · intro h
    split at h
    · cases h
      rfl
    · cases h
  · rintro rfl
    exact dif_pos text.isValidUTF8

theorem string_sound (n : Nat) {levels : Nat} :
    Sound parser.trace (parser.string n) (Body levels .str n) := by
  intro s value s' hgood hrun
  obtain ⟨bytes, t, htake, hrest⟩ := run_bind_eq_ok.1 hrun
  obtain ⟨u, ⟨hu, hnodes, hlength⟩, hstep⟩ := take_sound parser n hgood htake
  cases htext : String.fromUTF8? ⟨bytes.toArray⟩ with
  | none =>
    rw [htext] at hrest
    cases hrest
  | some text =>
    rw [htext] at hrest
    obtain ⟨rfl, rfl⟩ := run_pure_eq_ok.1 hrest
    cases fromUTF8?_eq_some.1 htext
    exact ⟨u, ⟨text, rfl, hu, hnodes, hlength⟩, hstep⟩

theorem string_complete (n : Nat) {levels : Nat} :
    Complete parser.trace (parser.string n) (Body levels .str n) := by
  rintro s w value s' ⟨text, rfl, hw, hnodes, hlength⟩ hstep
  have htake := take_complete parser n ⟨hw, hnodes, hlength⟩ hstep
  refine run_bind_eq_ok.2 ⟨_, _, htake, ?_⟩
  rw [fromUTF8?_eq_some.2 rfl]
  rfl

theorem binary_sound (n : Nat) {levels : Nat} :
    Sound parser.trace (parser.binary n) (Body levels .bin n) := by
  refine ((take_sound parser n).bind fun bytes => .pure (MessagePackValue.binary bytes)).mono ?_
  rintro w value ⟨bytes, u, v, ⟨hu, hnodes, hlength⟩, ⟨rfl, rfl⟩, rfl⟩
  rw [mul_one]
  exact ⟨bytes, rfl, hu, hnodes, hlength⟩

theorem binary_complete (n : Nat) {levels : Nat} :
    Complete parser.trace (parser.binary n) (Body levels .bin n) := by
  rintro s w value s' ⟨data, rfl, hw, hnodes, hlength⟩ hstep
  exact run_bind_eq_ok.2 ⟨_, _, take_complete parser n ⟨hw, hnodes, hlength⟩ hstep, rfl⟩

/-- One byte without a node. -/
def OneByte (w : Extent) (byte : UInt8) : Prop := w.bytes = [byte] ∧ w.nodes = 0

theorem byte_sound : Sound parser.trace parser.byte OneByte := by
  rw [byte_eq]
  refine ((take_sound parser 1).bind fun bytes => .pure (bytes.headD 0)).mono ?_
  rintro w byte ⟨bytes, u, v, ⟨hu, hnodes, hlength⟩, ⟨rfl, rfl⟩, rfl⟩
  obtain ⟨byte, rfl⟩ := List.length_eq_one_iff.1 hlength
  rw [mul_one]
  exact ⟨hu, hnodes⟩

theorem byte_complete : Complete parser.trace parser.byte OneByte := by
  rw [byte_eq]
  rintro s w byte s' ⟨hw, hnodes⟩ hstep
  exact run_bind_eq_ok.2 ⟨_, _, take_complete parser 1 ⟨hw, hnodes, rfl⟩ hstep, rfl⟩

theorem extension_sound (n : Nat) {levels : Nat} :
    Sound parser.trace (parser.extension n) (Body levels .ext n) := by
  refine ((byte_sound parser).bind fun _ => (take_sound parser n).bind fun _ => .pure MessagePackValue.null).mono ?_
  rintro w value ⟨kind, u, v, ⟨hu, hkind⟩, ⟨data, v, _, ⟨hv, hnodes, hlength⟩, ⟨rfl, rfl⟩, rfl⟩, rfl⟩
  refine ⟨kind, data, rfl, ?_, ?_, hlength⟩
  · rw [mul_one, Extent.bytes_mul, hu, hv, List.singleton_append]
  · rw [mul_one, Extent.nodes_mul, hkind, hnodes]

theorem extension_complete (n : Nat) {levels : Nat} :
    Complete parser.trace (parser.extension n) (Body levels .ext n) := by
  rintro s w value s' ⟨kind, data, rfl, hw, hnodes, hlength⟩ hstep
  refine ((byte_complete parser).bind fun _ => (take_complete parser n).bind fun _ => .pure MessagePackValue.null) ?_ hstep
  refine ⟨kind, ⟨[kind], 0, Nat.zero_le _⟩, ⟨data, 0, Nat.zero_le _⟩, ⟨rfl, rfl⟩,
    ⟨data, _, 1, ⟨rfl, rfl, hlength⟩, ⟨rfl, rfl⟩, (mul_one _).symm⟩, ?_⟩
  exact Extent.ext hw hnodes

/-! ## The collections -/

theorem collectionLength_run {n : Nat} {s s' : ParserState} :
    (parser.collectionLength n).run s = .ok ((), s') ↔ n ≤ parser.maxNodes - s.nodes ∧ s = s' := by
  show (if n > parser.maxNodes - s.nodes then parser.invalid "declares too many collection items"
    else pure () : Parse Unit).run s = _ ↔ _
  split
  · rename_i h
    exact ⟨fun hrun => (by cases hrun), fun hs => absurd hs.1 (by omega)⟩
  · rename_i h
    rw [run_pure_eq_ok]
    exact ⟨fun hs => ⟨by omega, hs.2⟩, fun hs => ⟨rfl, hs.2⟩⟩

/-- The early refusal is harmless: what is refused has too many nodes. -/
theorem collection_sound {p : Parse MessagePackValue} {G : Extent → MessagePackValue → Prop} (n : Nat)
    (hp : Sound parser.trace p G) :
    Sound parser.trace (do parser.collectionLength n; p) G := by
  intro s value s' hgood hrun
  obtain ⟨_, t, hcheck, hrest⟩ := run_bind_eq_ok.1 hrun
  obtain ⟨-, rfl⟩ := (collectionLength_run parser).1 hcheck
  exact hp hgood hrest

theorem collection_complete {p : Parse MessagePackValue} {G : Extent → MessagePackValue → Prop} {n : Nat}
    (hp : Complete parser.trace p G) (hn : ∀ w value, G w value → n ≤ w.nodes) :
    Complete parser.trace (do parser.collectionLength n; p) G := by
  intro s w value s' hw hstep
  have hnodes := hn w value hw
  have hcounted := hstep.counted
  rw [hstep.nodes] at hcounted
  exact run_bind_eq_ok.2 ⟨(), s, (collectionLength_run parser).2 ⟨by omega, rfl⟩, hp hw hstep⟩

theorem MessagePackValue.nodes_pos (value : MessagePackValue) : 0 < value.nodes := by
  cases value <;> exact Nat.succ_pos _

/-- As many nodes as there are extents with a node. -/
theorem times_nodes {α : Type} {G : Extent → α → Prop} {k : Nat} (hG : ∀ w a, G w a → k ≤ w.nodes) {n : Nat}
    {w : Extent} {as : List α} (h : Times G n w as) : n * k ≤ w.nodes := by
  obtain ⟨rfl, ws, hws, rfl⟩ := h
  rw [Extent.nodes_prod]
  induction hws with
  | nil => simp
  | cons hhead _ ih =>
    have hk := hG _ _ hhead
    rw [List.length_cons, List.map_cons, List.sum_cons, Nat.succ_mul]
    omega

theorem Denotes.nodes_pos {levels : Nat} {w : Extent} {value : MessagePackValue}
    (h : Denotes levels w value) : 1 ≤ w.nodes := by
  rw [h.2.1]
  exact value.nodes_pos

theorem DenotesPair.two_le {levels : Nat} {w : Extent} {pair : MessagePackValue × MessagePackValue}
    (h : DenotesPair levels w pair) : 2 ≤ w.nodes := by
  obtain ⟨u, v, hu, hv, rfl⟩ := h
  have hkey := hu.nodes_pos
  have hitem := hv.nodes_pos
  rw [Extent.nodes_mul]
  omega

section
variable {levels : Nat} {value : Parse MessagePackValue}

theorem pair_sound (h : Sound parser.trace value (Denotes levels)) :
    Sound parser.trace (do
      let key ← value
      let item ← value
      pure (key, item)) (DenotesPair levels) := by
  refine (h.bind fun key => h.bind fun item => .pure (key, item)).mono ?_
  rintro w pair ⟨key, u, v, hu, ⟨item, v, _, hv, ⟨rfl, rfl⟩, rfl⟩, rfl⟩
  exact ⟨u, v, hu, hv, by rw [mul_one]⟩

theorem pair_complete (h : Complete parser.trace value (Denotes levels)) :
    Complete parser.trace (do
      let key ← value
      let item ← value
      pure (key, item)) (DenotesPair levels) := by
  rintro s w pair s' ⟨u, v, hu, hv, rfl⟩ hstep
  refine (h.bind fun key => h.bind fun item => .pure (key, item)) ?_ hstep
  exact ⟨_, u, v, hu, ⟨_, v, 1, hv, ⟨rfl, rfl⟩, (mul_one v).symm⟩, rfl⟩

theorem array_sound (h : Sound parser.trace value (Denotes levels)) (n : Nat) :
    Sound parser.trace (parser.array value n) (Body levels .array n) := by
  refine (collection_sound parser n ((h.times n).bind fun values => .pure (MessagePackValue.array values))).mono ?_
  rintro w _ ⟨values, u, _, hu, ⟨rfl, rfl⟩, rfl⟩
  exact ⟨values, rfl, by rwa [mul_one]⟩

theorem array_complete (h : Complete parser.trace value (Denotes levels)) (n : Nat) :
    Complete parser.trace (parser.array value n) (Body levels .array n) := by
  refine collection_complete parser (n := n) ?_ ?_
  · rintro s w _ s' ⟨values, rfl, hw⟩ hstep
    exact ((h.times n).bind fun values => .pure (MessagePackValue.array values))
      ⟨values, w, 1, hw, ⟨rfl, rfl⟩, (mul_one w).symm⟩ hstep
  · rintro w _ ⟨values, -, hw⟩
    have hnodes := times_nodes (fun _ _ => Denotes.nodes_pos) hw
    omega

theorem map_sound (h : Sound parser.trace value (Denotes levels)) (n : Nat) :
    Sound parser.trace (parser.map value n) (Body levels .map n) := by
  refine (collection_sound parser _
    (((pair_sound parser h).times n).bind fun values => .pure (MessagePackValue.map values))).mono ?_
  rintro w _ ⟨values, u, _, hu, ⟨rfl, rfl⟩, rfl⟩
  exact ⟨values, rfl, by rwa [mul_one]⟩

theorem map_complete (h : Complete parser.trace value (Denotes levels)) (n : Nat) :
    Complete parser.trace (parser.map value n) (Body levels .map n) := by
  refine collection_complete parser (n := min (n * 2) usizeMax) ?_ ?_
  · rintro s w _ s' ⟨values, rfl, hw⟩ hstep
    exact (((pair_complete parser h).times n).bind fun values => .pure (MessagePackValue.map values))
      ⟨values, w, 1, hw, ⟨rfl, rfl⟩, (mul_one w).symm⟩ hstep
  · rintro w _ ⟨values, -, hw⟩
    have hnodes := times_nodes (fun _ _ => DenotesPair.two_le) hw
    omega

theorem body_sound (h : Sound parser.trace value (Denotes levels)) :
    ∀ family n, Sound parser.trace (parser.body value family n) (Body levels family n)
  | .str, n => string_sound parser n
  | .bin, n => binary_sound parser n
  | .ext, n => extension_sound parser n
  | .array, n => array_sound parser h n
  | .map, n => map_sound parser h n

theorem body_complete (h : Complete parser.trace value (Denotes levels)) :
    ∀ family n, Complete parser.trace (parser.body value family n) (Body levels family n)
  | .str, n => string_complete parser n
  | .bin, n => binary_complete parser n
  | .ext, n => extension_complete parser n
  | .array, n => array_complete parser h n
  | .map, n => map_complete parser h n

end

/-! ## The markers -/

/-- What a marker announces. -/
inductive PackFormat
  | const (value : MessagePackValue)
  | number (width : Nat) (read : Nat → MessagePackValue)
  | fixed (family : PackFamily) (n : Nat)
  | wide (family : PackFamily) (width : Nat)

/-- The formats of the markers; `0xc1` has none. -/
inductive HasFormat : UInt8 → PackFormat → Prop
  | nil : HasFormat 0xc0 (.const .null)
  | falsity : HasFormat 0xc2 (.const (.bool false))
  | truth : HasFormat 0xc3 (.const (.bool true))
  | positive {n : Nat} (h : n < 128) : HasFormat (UInt8.ofNat n) (.const (.u64 n))
  | negative {n : Nat} (h : n < 32) : HasFormat (UInt8.ofNat (0xe0 + n)) (.const (.i64 (n - 32)))
  | unsigned {width : Nat} {marker : UInt8} (h : (width, marker) ∈ unsignedFormats) :
      HasFormat marker (.number width .u64)
  | signed {width : Nat} {marker : UInt8} (h : (width, marker) ∈ signedFormats) :
      HasFormat marker (.number width fun n => .i64 (castSigned (8 * width) n))
  | float32 : HasFormat 0xca (.number 4 fun n => .f64 (Float32.ofBits (UInt32.ofNat n)).toFloat)
  | float64 : HasFormat 0xcb (.number 8 fun n => .f64 (Float.ofBits (UInt64.ofNat n)))
  | fixmap {n : Nat} (h : n < 16) : HasFormat (UInt8.ofNat (0x80 + n)) (.fixed .map n)
  | fixarray {n : Nat} (h : n < 16) : HasFormat (UInt8.ofNat (0x90 + n)) (.fixed .array n)
  | fixstr {n : Nat} (h : n < 32) : HasFormat (UInt8.ofNat (0xa0 + n)) (.fixed .str n)
  | fixext {n : Nat} {marker : UInt8} (h : (n, marker) ∈ fixedExtensions) :
      HasFormat marker (.fixed .ext n)
  | wide {family : PackFamily} {width : Nat} {marker : UInt8}
      (h : (family, width, marker) ∈ lengthFormats) : HasFormat marker (.wide family width)

/-- The markers above the short strings and below the negative numbers. -/
theorem marker_listed : ∀ k < 32, UInt8.ofNat (0xc0 + k) ∈ ([0xc0, 0xc1, 0xc2, 0xc3, 0xca, 0xcb] : List UInt8) ∨
    (∃ row ∈ lengthFormats, row.2.2 = UInt8.ofNat (0xc0 + k)) ∨
    (∃ row ∈ fixedExtensions ++ unsignedFormats ++ signedFormats, row.2 = UInt8.ofNat (0xc0 + k)) := by
  decide

/-- Every other marker has a format. -/
theorem marker_cases (marker : UInt8) : marker = 0xc1 ∨ ∃ format, HasFormat marker format := by
  have hlt := marker.toNat_lt
  have hmarker : ∀ base, base ≤ marker.toNat → UInt8.ofNat (base + (marker.toNat - base)) = marker := by
    intro base hbase
    rw [Nat.add_sub_cancel' hbase, UInt8.ofNat_toNat]
  have hranged : ∀ base format, base ≤ marker.toNat →
      HasFormat (UInt8.ofNat (base + (marker.toNat - base))) format →
      marker = 0xc1 ∨ ∃ format, HasFormat marker format := by
    intro base format hbase hformat
    rw [hmarker base hbase] at hformat
    exact .inr ⟨format, hformat⟩
  by_cases h : marker.toNat < 0x80
  · exact hranged 0 _ (Nat.zero_le _) (.positive (by omega))
  by_cases h : marker.toNat < 0x90
  · exact hranged 0x80 _ (by omega) (.fixmap (by omega))
  by_cases h : marker.toNat < 0xa0
  · exact hranged 0x90 _ (by omega) (.fixarray (by omega))
  by_cases h : marker.toNat < 0xc0
  · exact hranged 0xa0 _ (by omega) (.fixstr (by omega))
  by_cases h : marker.toNat < 0xe0
  · have hlisted := marker_listed (marker.toNat - 0xc0) (by omega)
    rw [hmarker 0xc0 (by omega)] at hlisted
    obtain hconst | ⟨⟨family, width, _⟩, hrow, rfl⟩ | ⟨⟨n, _⟩, hrow, rfl⟩ := hlisted
    · simp only [List.mem_cons, List.not_mem_nil, or_false] at hconst
      obtain rfl | rfl | rfl | rfl | rfl | rfl := hconst
      · exact .inr ⟨_, .nil⟩
      · exact .inl rfl
      · exact .inr ⟨_, .falsity⟩
      · exact .inr ⟨_, .truth⟩
      · exact .inr ⟨_, .float32⟩
      · exact .inr ⟨_, .float64⟩
    · exact .inr ⟨_, .wide hrow⟩
    · rw [List.mem_append, List.mem_append] at hrow
      obtain (hrow | hrow) | hrow := hrow
      · exact .inr ⟨_, .fixext hrow⟩
      · exact .inr ⟨_, .unsigned hrow⟩
      · exact .inr ⟨_, .signed hrow⟩
  · exact hranged 0xe0 _ (by omega) (.negative (by omega))

section
variable (value : Parse MessagePackValue)

/-- The method of a format. -/
def PackFormat.run : PackFormat → Parse MessagePackValue
  | .const value => pure value
  | .number width read => do pure (read (← parser.unsigned width))
  | .fixed family n => parser.body value family n
  | .wide family width => parser.unsigned width >>= parser.body value family

theorem low_bits_fixmap : ∀ n < 16, (UInt8.ofNat (0x80 + n) &&& 0x0f).toNat = n := by decide
theorem low_bits_fixarray : ∀ n < 16, (UInt8.ofNat (0x90 + n) &&& 0x0f).toNat = n := by decide
theorem low_bits_fixstr : ∀ n < 32, (UInt8.ofNat (0xa0 + n) &&& 0x1f).toNat = n := by decide
theorem castSigned_negative : ∀ n < 32, castSigned 8 (0xe0 + n) = (n : Int) - 32 := by decide

theorem marked_negative (n : Nat) (hn : n < 32) :
    parser.marked value (UInt8.ofNat (0xe0 + n)) = pure (.i64 (castSigned 8 (0xe0 + n))) := by
  interval_cases n <;> rfl

theorem marked_eq {marker : UInt8} {format : PackFormat} (h : HasFormat marker format) :
    parser.marked value marker = format.run parser value := by
  have htoNat : ∀ n, n < 256 → (UInt8.ofNat n).toNat = n := by
    intro n hn
    rw [UInt8.toNat_ofNat']
    omega
  cases h with
  | nil => rfl
  | falsity => rfl
  | truth => rfl
  | positive hn =>
    unfold MessagePackParser.marked
    rw [htoNat _ (by omega), if_pos (by omega)]
    rfl
  | negative hn =>
    rw [marked_negative parser value _ hn, castSigned_negative _ hn]
    rfl
  | unsigned hrow =>
    simp only [unsignedFormats, List.mem_cons, Prod.mk.injEq, List.not_mem_nil, or_false] at hrow
    obtain ⟨rfl, rfl⟩ | ⟨rfl, rfl⟩ | ⟨rfl, rfl⟩ | ⟨rfl, rfl⟩ := hrow
    · exact byte_then parser fun n => pure (MessagePackValue.u64 n)
    all_goals rfl
  | signed hrow =>
    simp only [signedFormats, List.mem_cons, Prod.mk.injEq, List.not_mem_nil, or_false] at hrow
    obtain ⟨rfl, rfl⟩ | ⟨rfl, rfl⟩ | ⟨rfl, rfl⟩ | ⟨rfl, rfl⟩ := hrow
    · exact byte_then parser fun n => pure (MessagePackValue.i64 (castSigned 8 n))
    all_goals rfl
  | float32 => rfl
  | float64 => rfl
  | fixmap hn =>
    unfold MessagePackParser.marked
    rw [htoNat _ (by omega), if_neg (by omega), if_pos (by omega), low_bits_fixmap _ hn]
    rfl
  | fixarray hn =>
    unfold MessagePackParser.marked
    rw [htoNat _ (by omega), if_neg (by omega), if_neg (by omega), if_pos (by omega), low_bits_fixarray _ hn]
    rfl
  | fixstr hn =>
    unfold MessagePackParser.marked
    rw [htoNat _ (by omega), if_neg (by omega), if_neg (by omega), if_neg (by omega), if_pos (by omega),
      low_bits_fixstr _ hn]
    rfl
  | fixext hrow =>
    simp only [fixedExtensions, List.mem_cons, Prod.mk.injEq, List.not_mem_nil, or_false] at hrow
    obtain ⟨rfl, rfl⟩ | ⟨rfl, rfl⟩ | ⟨rfl, rfl⟩ | ⟨rfl, rfl⟩ | ⟨rfl, rfl⟩ := hrow
    all_goals rfl
  | wide hrow =>
    simp only [lengthFormats, List.mem_cons, Prod.mk.injEq, List.not_mem_nil, or_false] at hrow
    obtain ⟨rfl, rfl, rfl⟩ | ⟨rfl, rfl, rfl⟩ | ⟨rfl, rfl, rfl⟩ | ⟨rfl, rfl, rfl⟩ | ⟨rfl, rfl, rfl⟩ |
      ⟨rfl, rfl, rfl⟩ | ⟨rfl, rfl, rfl⟩ | ⟨rfl, rfl, rfl⟩ | ⟨rfl, rfl, rfl⟩ | ⟨rfl, rfl, rfl⟩ |
      ⟨rfl, rfl, rfl⟩ | ⟨rfl, rfl, rfl⟩ | ⟨rfl, rfl, rfl⟩ := hrow
    · exact byte_then parser parser.binary
    · rfl
    · rfl
    · exact byte_then parser parser.extension
    · rfl
    · rfl
    · exact byte_then parser parser.string
    all_goals rfl

/-- The extents of a format. -/
def PackFormat.Derives (levels : Nat) : PackFormat → Extent → MessagePackValue → Prop
  | .const value => NoExtent value
  | .number width read => AndThen (BigEndian width) fun n => NoExtent (read n)
  | .fixed family n => Body levels family n
  | .wide family width => AndThen (BigEndian width) (Body levels family)

variable {value} {levels : Nat}

theorem format_sound (h : Sound parser.trace value (Denotes levels)) :
    ∀ format : PackFormat, Sound parser.trace (format.run parser value) (format.Derives levels)
  | .const value => .pure value
  | .number width read => (unsigned_sound parser width).bind fun n => .pure (read n)
  | .fixed family n => body_sound parser h family n
  | .wide family width => (unsigned_sound parser width).bind (body_sound parser h family)

theorem format_complete (h : Complete parser.trace value (Denotes levels)) :
    ∀ format : PackFormat, Complete parser.trace (format.run parser value) (format.Derives levels)
  | .const value => .pure value
  | .number width read => (unsigned_complete parser width).bind fun n => .pure (read n)
  | .fixed family n => body_complete parser h family n
  | .wide family width => (unsigned_complete parser width).bind (body_complete parser h family)

end

/-! ## Extents and encodings -/

section
variable {levels : Nat}

/-- The extents of the values of an array. -/
theorem encodes_of_denotes : ∀ {ws : List Extent} {values : List MessagePackValue},
    List.Forall₂ (Denotes levels) ws values → List.Forall₂ Encodes (ws.map Extent.bytes) values ∧
      ws.prod.nodes = nodesOfAll values ∧ nestingOfAll values ≤ levels
  | _, _, .nil => ⟨.nil, rfl, Nat.zero_le _⟩
  | w :: ws, value :: values, .cons h hs => by
    obtain ⟨hencodes, hnodes, hnesting⟩ := encodes_of_denotes hs
    refine ⟨.cons h.1 hencodes, ?_, ?_⟩
    · rw [List.prod_cons, Extent.nodes_mul, h.2.1, hnodes, nodesOfAll]
    · rw [nestingOfAll, Nat.max_le]
      exact ⟨h.2.2, hnesting⟩

theorem denotes_of_encodes : ∀ {parts : List (List UInt8)} {values : List MessagePackValue},
    List.Forall₂ Encodes parts values → nestingOfAll values ≤ levels →
    ∃ ws, List.Forall₂ (Denotes levels) ws values ∧ ws.map Extent.bytes = parts
  | _, _, .nil, _ => ⟨[], .nil, rfl⟩
  | part :: parts, value :: values, .cons h hs, hnesting => by
    rw [nestingOfAll, Nat.max_le] at hnesting
    obtain ⟨ws, hws, rfl⟩ := denotes_of_encodes hs hnesting.2
    exact ⟨⟨part, value.nodes, h.nodes_le levels hnesting.1⟩ :: ws, .cons ⟨h, rfl, hnesting.1⟩ hws, rfl⟩

/-- The extents of the pairs of a map. -/
theorem encodes_of_denotesPair : ∀ {ws : List Extent} {values : List (MessagePackValue × MessagePackValue)},
    List.Forall₂ (DenotesPair levels) ws values → ∃ keys items,
      List.Forall₂ Encodes keys (values.map Prod.fst) ∧ List.Forall₂ Encodes items (values.map Prod.snd) ∧
      ws.prod.bytes = (List.zipWith (· ++ ·) keys items).flatten ∧ ws.prod.nodes = nodesOfPairs values ∧
      nestingOfPairs values ≤ levels
  | _, _, .nil => ⟨[], [], .nil, .nil, rfl, rfl, Nat.zero_le _⟩
  | _ :: ws, (key, item) :: values, .cons ⟨u, v, hu, hv, rfl⟩ hs => by
    obtain ⟨keys, items, hkeys, hitems, hbytes, hnodes, hnesting⟩ := encodes_of_denotesPair hs
    refine ⟨u.bytes :: keys, v.bytes :: items, .cons hu.1 hkeys, .cons hv.1 hitems, ?_, ?_, ?_⟩
    · rw [List.prod_cons, Extent.bytes_mul, hbytes, List.zipWith_cons_cons, List.flatten_cons,
        Extent.bytes_mul]
    · rw [List.prod_cons, Extent.nodes_mul, Extent.nodes_mul, hu.2.1, hv.2.1, hnodes, nodesOfPairs]
    · rw [nestingOfPairs, Nat.max_le, Nat.max_le]
      exact ⟨⟨hu.2.2, hv.2.2⟩, hnesting⟩

theorem denotesPair_of_encodes : ∀ {keys items : List (List UInt8)}
    {values : List (MessagePackValue × MessagePackValue)},
    List.Forall₂ Encodes keys (values.map Prod.fst) → List.Forall₂ Encodes items (values.map Prod.snd) →
    nestingOfPairs values ≤ levels → ∃ ws, List.Forall₂ (DenotesPair levels) ws values ∧
      ws.prod.bytes = (List.zipWith (· ++ ·) keys items).flatten
  | _, _, [], .nil, .nil, _ => ⟨[], .nil, rfl⟩
  | key :: keys, item :: items, (k, i) :: values, .cons hk hks, .cons hi his, hnesting => by
    rw [nestingOfPairs, Nat.max_le, Nat.max_le] at hnesting
    obtain ⟨⟨hkey, hitem⟩, hrest⟩ := hnesting
    obtain ⟨ws, hws, hbytes⟩ := denotesPair_of_encodes hks his hrest
    refine ⟨⟨key, k.nodes, hk.nodes_le levels hkey⟩ * ⟨item, i.nodes, hi.nodes_le levels hitem⟩ :: ws,
      .cons ⟨_, _, ⟨hk, rfl, hkey⟩, ⟨hi, rfl, hitem⟩, rfl⟩ hws, ?_⟩
    rw [List.prod_cons, Extent.bytes_mul, hbytes, List.zipWith_cons_cons, List.flatten_cons,
      Extent.bytes_mul]

/-- The value after a marker. -/
def Marked (levels : Nat) (marker : UInt8) (w : Extent) (value : MessagePackValue) : Prop :=
  Encodes (marker :: w.bytes) value ∧ w.nodes + 1 = value.nodes ∧ value.nesting ≤ levels

theorem marked_of_body {family : PackFamily} {marker : UInt8} {n : Nat} {u w : Extent}
    {value : MessagePackValue} (hheader : Header family (marker :: u.bytes) n) (hu : u.nodes = 0)
    (h : Body levels family n w value) : Marked levels marker (u * w) value := by
  unfold Marked
  rw [Extent.bytes_mul, Extent.nodes_mul, hu, Nat.zero_add, ← List.cons_append]
  cases family with
  | str =>
    obtain ⟨text, rfl, hw, hnodes, rfl⟩ := h
    rw [hw, hnodes]
    exact ⟨.str hheader, rfl, Nat.zero_le _⟩
  | bin =>
    obtain ⟨data, rfl, hw, hnodes, rfl⟩ := h
    rw [hw, hnodes]
    exact ⟨.bin hheader, rfl, Nat.zero_le _⟩
  | ext =>
    obtain ⟨kind, data, rfl, hw, hnodes, rfl⟩ := h
    rw [hw, hnodes]
    exact ⟨.ext kind hheader, rfl, Nat.zero_le _⟩
  | array =>
    obtain ⟨values, rfl, rfl, ws, hws, rfl⟩ := h
    obtain ⟨hencodes, hnodes, hnesting⟩ := encodes_of_denotes hws
    rw [Extent.bytes_prod, hnodes]
    exact ⟨.array hheader hencodes, rfl, hnesting⟩
  | map =>
    obtain ⟨values, rfl, rfl, ws, hws, rfl⟩ := h
    obtain ⟨keys, items, hkeys, hitems, hbytes, hnodes, hnesting⟩ := encodes_of_denotesPair hws
    rw [hbytes, hnodes]
    exact ⟨.map hheader hkeys hitems, rfl, hnesting⟩

/-- What a format derives is an encoding that starts with its marker. -/
theorem marked_of_format {marker : UInt8} {format : PackFormat} (hformat : HasFormat marker format)
    {w : Extent} {value : MessagePackValue} (h : format.Derives levels w value) :
    Marked levels marker w value := by
  have hconst : ∀ {v}, NoExtent v w value → Encodes [marker] v → v.nodes = 1 → v.nesting = 0 →
      Marked levels marker w value := by
    rintro v ⟨rfl, rfl⟩ hencodes hnodes hnesting
    exact ⟨hencodes, hnodes.symm, by omega⟩
  have hnumber : ∀ {width} {read : Nat → MessagePackValue},
      AndThen (BigEndian width) (fun n => NoExtent (read n)) w value →
      (∀ n < 256 ^ width, Encodes (marker :: beBytes width n) (read n) ∧ (read n).nodes = 1 ∧
        (read n).nesting = 0) → Marked levels marker w value := by
    rintro width read ⟨n, u, v, ⟨hu, hnodes, hn⟩, ⟨rfl, rfl⟩, rfl⟩ hread
    obtain ⟨hencodes, hone, hnesting⟩ := hread n hn
    unfold Marked
    rw [mul_one, hu, hnodes, hone, hnesting]
    exact ⟨hencodes, rfl, Nat.zero_le _⟩
  have hfixed : ∀ {family n}, Header family [marker] n → Body levels family n w value →
      Marked levels marker w value := by
    intro family n hheader hbody
    rw [← one_mul w]
    exact marked_of_body hheader rfl hbody
  cases hformat with
  | nil => exact hconst h .nil rfl rfl
  | falsity => exact hconst h .falsity rfl rfl
  | truth => exact hconst h .truth rfl rfl
  | positive hn => exact hconst h (.positive hn) rfl rfl
  | negative hn => exact hconst h (.negative hn) rfl rfl
  | unsigned hrow => exact hnumber h fun n hn => ⟨.unsigned hrow hn, rfl, rfl⟩
  | @signed width _ hrow =>
    refine hnumber h fun n hn => ⟨?_, rfl, rfl⟩
    have hwidth : 0 < 8 * width := by
      simp only [signedFormats, List.mem_cons, Prod.mk.injEq, List.not_mem_nil, or_false] at hrow
      omega
    rw [pow256] at hn
    obtain ⟨hlow, hhigh, hbits⟩ := castSigned_range hwidth hn
    have hencodes := Encodes.signed hrow hlow hhigh
    rw [hbits] at hencodes
    exact hencodes
  | float32 =>
    refine hnumber h fun n hn => ⟨?_, rfl, rfl⟩
    have hbits : (UInt32.ofNat n).toNat = n := by
      rw [UInt32.toNat_ofNat']
      exact Nat.mod_eq_of_lt hn
    have hencodes := Encodes.float32 (UInt32.ofNat n)
    rw [hbits] at hencodes
    exact hencodes
  | float64 =>
    refine hnumber h fun n hn => ⟨?_, rfl, rfl⟩
    have hbits : (UInt64.ofNat n).toNat = n := by
      rw [UInt64.toNat_ofNat']
      exact Nat.mod_eq_of_lt hn
    have hencodes := Encodes.float64 (UInt64.ofNat n)
    rw [hbits] at hencodes
    exact hencodes
  | fixmap hn => exact hfixed (.fixmap hn) h
  | fixarray hn => exact hfixed (.fixarray hn) h
  | fixstr hn => exact hfixed (.fixstr hn) h
  | fixext hrow => exact hfixed (.fixext hrow) h
  | wide hrow =>
    obtain ⟨n, u, v, ⟨hu, hnodes, hn⟩, hbody, rfl⟩ := h
    exact marked_of_body (hu ▸ .wide hrow hn) hnodes hbody

/-- A header and the body after it are a format's. -/
theorem format_of_body {family : PackFamily} {header : List UInt8} {n : Nat} (hheader : Header family header n)
    {marker : UInt8} {w b : Extent} {value : MessagePackValue} (hbytes : marker :: w.bytes = header ++ b.bytes)
    (hnodes : w.nodes = b.nodes) (hbody : Body levels family n b value) :
    ∃ format, HasFormat marker format ∧ format.Derives levels w value := by
  have hfixed : ∀ {m}, header = [m] → HasFormat m (.fixed family n) →
      ∃ format, HasFormat marker format ∧ format.Derives levels w value := by
    rintro m rfl hformat
    rw [List.singleton_append, List.cons.injEq] at hbytes
    obtain ⟨rfl, hbytes⟩ := hbytes
    cases Extent.ext hbytes hnodes
    exact ⟨_, hformat, hbody⟩
  cases hheader with
  | fixmap hn => exact hfixed rfl (.fixmap hn)
  | fixarray hn => exact hfixed rfl (.fixarray hn)
  | fixstr hn => exact hfixed rfl (.fixstr hn)
  | fixext hrow => exact hfixed rfl (.fixext hrow)
  | @wide _ width _ _ hrow hn =>
    rw [List.cons_append, List.cons.injEq] at hbytes
    obtain ⟨rfl, hbytes⟩ := hbytes
    refine ⟨_, .wide hrow, n, ⟨beBytes width n, 0, Nat.zero_le _⟩, b, ⟨rfl, rfl, hn⟩, hbody, ?_⟩
    refine Extent.ext hbytes ?_
    rw [hnodes, Extent.nodes_mul, Nat.zero_add]

/-- An encoding that starts with a marker is of a format of the marker. -/
theorem format_of_marked {marker : UInt8} {w : Extent} {value : MessagePackValue}
    (h : Marked levels marker w value) : ∃ format, HasFormat marker format ∧ format.Derives levels w value := by
  obtain ⟨hencodes, hnodes, hnesting⟩ := h
  have hconst : ∀ {m}, marker :: w.bytes = [m] → HasFormat m (.const value) → value.nodes = 1 →
      ∃ format, HasFormat marker format ∧ format.Derives levels w value := by
    intro m hbytes hformat hone
    rw [List.cons.injEq] at hbytes
    obtain ⟨rfl, hbytes⟩ := hbytes
    refine ⟨_, hformat, Extent.ext hbytes ?_, rfl⟩
    rw [Extent.nodes_one]
    omega
  have hnumber : ∀ {m width n read}, marker :: w.bytes = m :: beBytes width n → n < 256 ^ width →
      HasFormat m (.number width read) → read n = value → value.nodes = 1 →
      ∃ format, HasFormat marker format ∧ format.Derives levels w value := by
    intro m width n read hbytes hn hformat hread hone
    rw [List.cons.injEq] at hbytes
    obtain ⟨rfl, hbytes⟩ := hbytes
    exact ⟨_, hformat, n, w, 1, ⟨hbytes, by omega, hn⟩, ⟨rfl, hread.symm⟩, (mul_one w).symm⟩
  generalize hbytes : marker :: w.bytes = bytes at hencodes
  cases hencodes with
  | nil => exact hconst hbytes .nil rfl
  | falsity => exact hconst hbytes .falsity rfl
  | truth => exact hconst hbytes .truth rfl
  | positive hn => exact hconst hbytes (.positive hn) rfl
  | negative hn => exact hconst hbytes (.negative hn) rfl
  | unsigned hrow hn => exact hnumber hbytes hn (.unsigned hrow) rfl rfl
  | @signed width n _ hrow hlow hhigh =>
    have hwidth : 0 < 8 * width := by
      simp only [signedFormats, List.mem_cons, Prod.mk.injEq, List.not_mem_nil, or_false] at hrow
      omega
    obtain ⟨hcast, hlt⟩ := castSigned_of_range hwidth hlow hhigh
    rw [← pow256] at hlt
    exact hnumber hbytes hlt (.signed hrow) (congrArg MessagePackValue.i64 hcast) rfl
  | float32 bits =>
    refine hnumber hbytes bits.toNat_lt .float32 ?_ rfl
    rw [UInt32.ofNat_toNat]
  | float64 bits =>
    refine hnumber hbytes bits.toNat_lt .float64 ?_ rfl
    rw [UInt64.ofNat_toNat]
  | @str header text hheader =>
    exact format_of_body hheader (b := ⟨utf8Bytes text, 0, Nat.zero_le _⟩) hbytes (Nat.succ.inj hnodes)
      ⟨text, rfl, rfl, rfl, rfl⟩
  | @bin header data hheader =>
    exact format_of_body hheader (b := ⟨data, 0, Nat.zero_le _⟩) hbytes (Nat.succ.inj hnodes)
      ⟨data, rfl, rfl, rfl, rfl⟩
  | @ext header data kind hheader =>
    exact format_of_body hheader (b := ⟨kind :: data, 0, Nat.zero_le _⟩) hbytes (Nat.succ.inj hnodes)
      ⟨kind, data, rfl, rfl, rfl, rfl⟩
  | array hheader hvalues =>
    obtain ⟨ws, hws, rfl⟩ := denotes_of_encodes hvalues hnesting
    refine format_of_body hheader (b := ws.prod) ?_ ?_ ⟨_, rfl, rfl, ws, hws, rfl⟩
    · rw [hbytes, Extent.bytes_prod]
    · rw [(encodes_of_denotes hws).2.1]
      exact Nat.succ.inj hnodes
  | map hheader hkeys hitems =>
    obtain ⟨ws, hws, hflat⟩ := denotesPair_of_encodes hkeys hitems hnesting
    refine format_of_body hheader (b := ws.prod) ?_ ?_ ⟨_, rfl, rfl, ws, hws, rfl⟩
    · rw [hbytes, hflat]
    · obtain ⟨-, -, -, -, -, hcount, -⟩ := encodes_of_denotesPair hws
      rw [hcount]
      exact Nat.succ.inj hnodes

end

/-! ## The decoder -/

section
variable {levels : Nat} {value : Parse MessagePackValue}

theorem marked_sound (h : Sound parser.trace value (Denotes levels)) (marker : UInt8) :
    Sound parser.trace (parser.marked value marker) (Marked levels marker) := by
  obtain rfl | ⟨format, hformat⟩ := marker_cases marker
  · intro s a s' hgood hrun
    cases hrun
  · rw [marked_eq parser value hformat]
    exact (format_sound parser h format).mono fun w value => marked_of_format hformat

theorem marked_complete (h : Complete parser.trace value (Denotes levels)) (marker : UInt8) :
    Complete parser.trace (parser.marked value marker) (Marked levels marker) := by
  intro s w v s' hmarked hstep
  obtain ⟨format, hformat, hderives⟩ := format_of_marked hmarked
  rw [marked_eq parser value hformat]
  exact format_complete parser h format hderives hstep

end

/-- A byte that is counted as a node. -/
def MarkerByte (w : Extent) (marker : UInt8) : Prop := w.bytes = [marker] ∧ w.nodes = 1

theorem countNode_run {s : ParserState} (hgood : s.Good parser) :
    (parser.countNode).run s = if s.nodes + 1 ≤ parser.maxNodes then .ok ((), ⟨s.position, s.nodes + 1⟩)
      else .error (parser.error "structure exceeds the node limit") := by
  have hread := hgood.read
  have hinside := hgood.inside
  have hlength := parser.length_lt
  have hcount : min (s.nodes + 1) usizeMax = s.nodes + 1 := by
    unfold usizeMax
    omega
  show (if min (s.nodes + 1) usizeMax > parser.maxNodes then
    parser.invalid "structure exceeds the node limit" else pure () : Parse Unit).run
      ⟨s.position, min (s.nodes + 1) usizeMax⟩ = _
  rw [hcount]
  by_cases h : s.nodes + 1 ≤ parser.maxNodes
  · rw [if_pos h, if_neg (by omega)]
    rfl
  · rw [if_neg h, if_pos (by omega)]
    rfl

theorem marker_sound : Sound parser.trace (parser.countNode >>= fun _ => parser.byte) MarkerByte := by
  intro s marker s' hgood hrun
  obtain ⟨_, t, hcount, hbyte⟩ := run_bind_eq_ok.1 hrun
  rw [countNode_run parser hgood] at hcount
  split at hcount
  · rename_i hmax
    cases hcount
    rw [byte_eq] at hbyte
    obtain ⟨bytes, _, htake, hhead⟩ := run_bind_eq_ok.1 hbyte
    obtain ⟨hroom, rfl, rfl⟩ := (take_run_eq_ok parser).1 htake
    obtain ⟨rfl, rfl⟩ := run_pure_eq_ok.1 hhead
    obtain ⟨marker, hmarker⟩ := List.length_eq_one_iff.1 (length_slice hroom)
    rw [hmarker]
    exact ⟨⟨[marker], 1, Nat.le_refl 1⟩, ⟨rfl, rfl⟩, hgood, hmarker, rfl, rfl, hroom, hmax⟩
  · cases hcount

theorem marker_complete : Complete parser.trace (parser.countNode >>= fun _ => parser.byte) MarkerByte := by
  rintro s w marker s' ⟨hw, hnodes⟩ hstep
  have hcounted := hstep.counted
  have hinside := hstep.inside
  have hbytes := hstep.bytes
  rw [hstep.nodes, hnodes] at hcounted
  rw [hstep.position, hw, List.length_singleton] at hinside
  rw [hw, List.length_singleton] at hbytes
  refine run_bind_eq_ok.2 ⟨(), ⟨s.position, s.nodes + 1⟩, ?_, ?_⟩
  · rw [countNode_run parser hstep.good, if_pos hcounted]
  · rw [byte_eq]
    refine run_bind_eq_ok.2 ⟨_, _, (take_run_eq_ok parser).2 ⟨hinside, hbytes, rfl⟩, ?_⟩
    refine run_pure_eq_ok.2 ⟨rfl, ?_⟩
    obtain ⟨position, nodes⟩ := s'
    rw [ParserState.mk.injEq]
    refine ⟨?_, ?_⟩
    · rw [show position = _ from hstep.position, hw, List.length_singleton]
    · rw [show nodes = _ from hstep.nodes, hnodes]

theorem value_succ (levels : Nat) : parser.value (levels + 1) =
    (parser.countNode >>= fun _ => parser.byte) >>= parser.marked (parser.value levels) := by
  rw [bind_assoc]
  rfl

/-- **The decoder is sound**: what it returns is encoded by what it consumed. -/
theorem value_sound : ∀ levels, Sound parser.trace (parser.value levels) (Denotes levels)
  | 0 => fun _ _ _ _ hrun => by cases hrun
  | levels + 1 => by
    rw [value_succ]
    refine ((marker_sound parser).bind (marked_sound parser (value_sound levels))).mono ?_
    rintro w value ⟨marker, u, v, ⟨hu, hone⟩, ⟨hencodes, hnodes, hnesting⟩, rfl⟩
    refine ⟨?_, ?_, Nat.lt_succ_of_le hnesting⟩
    · rw [Extent.bytes_mul, hu, List.singleton_append]
      exact hencodes
    · rw [Extent.nodes_mul, hone, Nat.add_comm, hnodes]

theorem Encodes.ne_nil {bytes : List UInt8} {value : MessagePackValue} (h : Encodes bytes value) :
    bytes ≠ [] := by
  have hlength := Nat.lt_of_lt_of_le value.nodes_pos (h.nodes_le _ (Nat.lt_succ_self _))
  exact List.ne_nil_of_length_pos hlength

/-- **The decoder is complete**: what is encoded within the limits is consumed and returned. -/
theorem value_complete : ∀ levels, Complete parser.trace (parser.value levels) (Denotes levels)
  | 0 => fun _ _ _ _ h _ => absurd h.2.2 (Nat.not_lt_zero _)
  | levels + 1 => by
    rw [value_succ]
    rintro s ⟨bytes, nodes, hle⟩ value s' ⟨hencodes, rfl, hnesting⟩ hstep
    obtain ⟨marker, rest, rfl⟩ := List.exists_cons_of_ne_nil hencodes.ne_nil
    have hpos := value.nodes_pos
    rw [List.length_cons] at hle
    refine ((marker_complete parser).bind (marked_complete parser (value_complete levels))) ?_ hstep
    refine ⟨marker, ⟨[marker], 1, Nat.le_refl 1⟩, ⟨rest, value.nodes - 1, by omega⟩, ⟨rfl, rfl⟩,
      ⟨hencodes, Nat.sub_add_cancel hpos, Nat.lt_succ_iff.1 hnesting⟩, ?_⟩
    exact Extent.ext rfl (Nat.add_sub_cancel' hpos).symm

/-! ## No panic -/

/-- The method does not panic. -/
def Safe {α : Type} (p : Parse α) : Prop := ∀ s, p.run s ≠ .error .panicked

theorem Safe.pure {α : Type} (a : α) : Safe (pure a : Parse α) := fun _ h => by cases h

theorem Safe.bind {α β : Type} {p : Parse α} {f : α → Parse β} (hp : Safe p) (hf : ∀ a, Safe (f a)) :
    Safe (p >>= f) := by
  intro s h
  rw [StateT.run_bind, bind_eq_error] at h
  obtain h | ⟨⟨a, t⟩, -, h⟩ := h
  · exact hp s h
  · exact hf a t h

theorem Safe.times {α : Type} {p : Parse α} (hp : Safe p) : ∀ n, Safe (times p n)
  | 0 => .pure []
  | n + 1 => hp.bind fun a => (Safe.times hp n).bind fun rest => .pure (a :: rest)

theorem invalid_safe {α : Type} (message : String) : Safe (parser.invalid message : Parse α) :=
  fun _ h => by cases h

theorem take_safe (len : Nat) : Safe (parser.take len) := by
  intro s h
  rw [take_run] at h
  split at h <;> cases h

theorem byte_safe : Safe parser.byte := by
  rw [byte_eq]
  exact (take_safe parser 1).bind fun _ => .pure _

theorem unsigned_safe (width : Nat) : Safe (parser.unsigned width) := by
  rw [unsigned_eq]
  exact (take_safe parser width).bind fun _ => .pure _

theorem collectionLength_safe (n : Nat) : Safe (parser.collectionLength n) := by
  intro s h
  change (if n > parser.maxNodes - s.nodes then parser.invalid "declares too many collection items"
    else pure () : Parse Unit).run s = _ at h
  split at h <;> cases h

theorem countNode_safe : Safe parser.countNode := by
  intro s h
  change (if min (s.nodes + 1) usizeMax > parser.maxNodes then
    parser.invalid "structure exceeds the node limit" else pure () : Parse Unit).run
      ⟨s.position, min (s.nodes + 1) usizeMax⟩ = _ at h
  split at h <;> cases h

theorem body_safe {value : Parse MessagePackValue} (hvalue : Safe value) :
    ∀ family n, Safe (parser.body value family n)
  | .str, n => by
    refine (take_safe parser n).bind fun bytes => ?_
    split
    · exact invalid_safe parser _
    · exact .pure _
  | .bin, n => (take_safe parser n).bind fun _ => .pure _
  | .ext, n => (byte_safe parser).bind fun _ => (take_safe parser n).bind fun _ => .pure _
  | .array, n => (collectionLength_safe parser n).bind fun _ => (hvalue.times n).bind fun _ => .pure _
  | .map, n => (collectionLength_safe parser _).bind fun _ =>
      (Safe.times (hvalue.bind fun _ => hvalue.bind fun _ => .pure _) n).bind fun _ => .pure _

theorem format_safe {value : Parse MessagePackValue} (hvalue : Safe value) :
    ∀ format : PackFormat, Safe (format.run parser value)
  | .const value => .pure value
  | .number width _ => (unsigned_safe parser width).bind fun _ => .pure _
  | .fixed family n => body_safe parser hvalue family n
  | .wide family width => (unsigned_safe parser width).bind (body_safe parser hvalue family)

theorem value_safe : ∀ levels, Safe (parser.value levels)
  | 0 => invalid_safe parser _
  | levels + 1 => by
    refine (countNode_safe parser).bind fun _ => (byte_safe parser).bind fun marker => ?_
    obtain rfl | ⟨format, hformat⟩ := marker_cases marker
    · exact invalid_safe parser _
    · rw [marked_eq parser _ hformat]
      exact format_safe parser (value_safe levels) format

theorem decode_eq_ok {value : MessagePackValue} : parser.decode = .ok value ↔ ∃ s,
    (parser.value (parser.maxDepth + 1)).run ⟨0, 0⟩ = .ok (value, s) ∧ s.position = parser.bytes.length := by
  unfold MessagePackParser.decode
  rw [bind_eq_ok]
  constructor
  · rintro ⟨⟨value, s⟩, hrun, h⟩
    dsimp only at h
    rw [seq_eq_ok, rejectIf_eq_ok, not_not, pure_eq_ok] at h
    obtain ⟨hend, rfl⟩ := h
    exact ⟨s, hrun, hend⟩
  · rintro ⟨s, hrun, hend⟩
    refine ⟨(value, s), hrun, ?_⟩
    dsimp only
    rw [seq_eq_ok, rejectIf_eq_ok, not_not, pure_eq_ok]
    exact ⟨hend, rfl⟩

/-- **Decoding is exact.** The value is returned exactly when the bytes are one encoding of it, it nests at
most `max_depth` deep and has at most `max_nodes` nodes; nothing out of range is read. -/
theorem decode_exact : parser.decode ≠ .error .panicked ∧ ∀ value, parser.decode = .ok value ↔
    Encodes parser.bytes value ∧ value.nesting ≤ parser.maxDepth ∧ value.nodes ≤ parser.maxNodes := by
  have hgood : (⟨0, 0⟩ : ParserState).Good parser := ⟨Nat.le_refl 0, Nat.zero_le _, Nat.zero_le _⟩
  refine ⟨fun h => ?_, fun value => ?_⟩
  · unfold MessagePackParser.decode at h
    obtain h | ⟨⟨value, s⟩, -, h⟩ := bind_eq_error.1 h
    · exact value_safe parser _ _ h
    · obtain h | ⟨_, -, h⟩ := bind_eq_error.1 h
      · rw [rejectIf_eq_error] at h
        cases h.2
      · cases h
  rw [decode_eq_ok]
  constructor
  · rintro ⟨s, hrun, hend⟩
    obtain ⟨w, ⟨hencodes, hnodes, hnesting⟩, hstep⟩ := value_sound parser _ hgood hrun
    have hposition := hstep.position
    have hcounted := hstep.counted
    have hbytes := hstep.bytes
    rw [hend, Nat.zero_add] at hposition
    rw [hstep.nodes, Nat.zero_add, hnodes] at hcounted
    rw [← hposition, slice, List.drop_zero, List.take_length] at hbytes
    rw [hbytes]
    exact ⟨hencodes, Nat.lt_succ_iff.1 hnesting, hcounted⟩
  · rintro ⟨hencodes, hnesting, hnodes⟩
    have hlt := Nat.lt_succ_of_le hnesting
    refine ⟨⟨parser.bytes.length, value.nodes⟩, ?_, rfl⟩
    refine value_complete parser _
      (w := ⟨parser.bytes, value.nodes, hencodes.nodes_le _ hlt⟩) ⟨hencodes, rfl, hlt⟩ ?_
    refine ⟨hgood, ?_, (Nat.zero_add _).symm, (Nat.zero_add _).symm, Nat.le_refl _, hnodes⟩
    rw [slice, List.drop_zero, List.take_length]

end

example : (MessagePackParser.decode ⟨[0x93, 0xc0, 0xc0, 0xc0], 8, 4, "fixture", by decide⟩).isOk = true := by
  decide +kernel

example : (MessagePackParser.decode ⟨[0x93, 0xc0, 0xc0, 0xc0], 8, 3, "fixture", by decide⟩).isOk = false := by
  decide +kernel

end LorePia
