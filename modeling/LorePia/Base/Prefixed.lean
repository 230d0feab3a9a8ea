import LorePia.Base.Bytes
import LorePia.Base.Utf8Bytes

/-!
# Fields with their length in front

A field is written as its length, big-endian in a fixed number of bytes and saturated, and its bytes. While
the lengths fit, where a field ends can be read off the bytes (`prefixed_append_inj`), so a record of fields
written one after another determines its fields (`flatMap_prefixed_inj`).
-/

namespace Base

variable {width : Nat}

/-- A field with its length in front. -/
def prefixed (width : Nat) (value : List UInt8) : List UInt8 :=
  beBytes width (min value.length (256 ^ width - 1)) ++ value

theorem length_prefixed (value : List UInt8) : (prefixed width value).length = width + value.length := by
  rw [prefixed, List.length_append, length_beBytes]

theorem beBytes_inj {m n : Nat} (hm : m < 256 ^ width) (hn : n < 256 ^ width)
    (h : beBytes width m = beBytes width n) : m = n := by
  rw [← beNat_beBytes hm, ← beNat_beBytes hn, h]

/-- The first of two fields is told from what follows. -/
theorem prefixed_append_inj {a b rest rest' : List UInt8} (ha : a.length < 256 ^ width)
    (hb : b.length < 256 ^ width) (h : prefixed width a ++ rest = prefixed width b ++ rest') :
    a = b ∧ rest = rest' := by
  rw [prefixed, prefixed, Nat.min_eq_left (Nat.le_sub_one_of_lt ha),
    Nat.min_eq_left (Nat.le_sub_one_of_lt hb), List.append_assoc, List.append_assoc] at h
  obtain ⟨hlength, htail⟩ := List.append_inj h (by rw [length_beBytes, length_beBytes])
  exact List.append_inj htail (beBytes_inj ha hb hlength)

/-- A record determines its fields. -/
theorem flatMap_prefixed_inj (hwidth : 0 < width) : ∀ {xs ys : List (List UInt8)},
    (∀ x ∈ xs, x.length < 256 ^ width) → (∀ y ∈ ys, y.length < 256 ^ width) →
    xs.flatMap (prefixed width) = ys.flatMap (prefixed width) → xs = ys
  | [], [], _, _, _ => rfl
  | [], y :: ys, _, _, h => by
    have hlength := congrArg List.length h
    rw [List.flatMap_nil, List.flatMap_cons, List.length_append, length_prefixed, List.length_nil] at hlength
    omega
  | x :: xs, [], _, _, h => by
    have hlength := congrArg List.length h
    rw [List.flatMap_nil, List.flatMap_cons, List.length_append, length_prefixed, List.length_nil] at hlength
    omega
  | x :: xs, y :: ys, hxs, hys, h => by
    rw [List.flatMap_cons, List.flatMap_cons] at h
    obtain ⟨rfl, hrest⟩ := prefixed_append_inj (hxs x (List.mem_cons_self ..)) (hys y (List.mem_cons_self ..)) h
    rw [flatMap_prefixed_inj hwidth (fun z hz => hxs z (.tail _ hz)) (fun z hz => hys z (.tail _ hz)) hrest]

end Base
