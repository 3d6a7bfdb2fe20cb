import Lemmata.Fingerprint
import Lemmata.Proofs.DeclarationOrder
import Mathlib.Algebra.Group.Int.Defs
import Mathlib.Algebra.Group.Nat.Defs

/-!
How far the bytes of a statement tell the statement. A zero byte ends each field, so the fields can
be told apart as long as no text has a zero character and no position starts with a zero byte.
-/

set_option autoImplicit false

namespace Lemmata

open Digest

def zeroChar : Char := Char.ofNat 0

section Bytes

theorem byte_list_loop (bytes : ByteArray) (index : Nat) (done : Bytes) :
    ByteArray.toList.loop bytes index done = done.reverse ++ bytes.data.toList.drop index := by
  rw [ByteArray.toList.loop]
  by_cases inside : index < bytes.size
  · have bounded : index < bytes.data.toList.length := inside
    rw [if_pos inside, byte_list_loop bytes (index + 1), List.drop_eq_getElem_cons bounded]
    simp [ByteArray.get!, inside]
  · rw [if_neg inside, List.drop_eq_nil_of_le (Nat.le_of_not_lt inside), List.append_nil]
termination_by bytes.size - index

theorem text_bytes_data (text : String) : textBytes text = text.toByteArray.data.toList := by
  simp [textBytes, String.toUTF8, ByteArray.toList, byte_list_loop]

theorem text_bytes_chars (text : String) : textBytes text = text.toList.flatMap String.utf8EncodeChar := by
  rw [text_bytes_data, ← String.utf8Encode_toList]
  simp [List.utf8Encode]

theorem text_bytes_injective (text other : String) (same : textBytes text = textBytes other) :
    text = other := by
  rw [text_bytes_data, text_bytes_data, Array.toList_inj] at same
  exact String.toByteArray_inj.mp (ByteArray.ext same)

theorem text_bytes_append (text other : String) :
    textBytes (text ++ other) = textBytes text ++ textBytes other := by
  simp only [text_bytes_chars, String.toList_append, List.flatMap_append]

theorem byte_nonzero (value : Nat) (positive : value % 256 ≠ 0) : (0 : UInt8) ≠ UInt8.ofNat value := by
  intro zero
  have low := (UInt8.ofNat_eq_iff_mod_eq_toNat value 0).mp zero.symm
  simp only [Nat.reducePow, UInt8.toNat_ofNat, Nat.zero_mod] at low
  exact positive low

theorem char_bytes_nonzero (c : Char) (different : c ≠ zeroChar) : 0 ∉ String.utf8EncodeChar c := by
  have positive : c.val.toNat ≠ 0 := by
    intro zero
    exact different (Char.ext (UInt32.toNat_inj.mp zero))
  -- Apart from a single byte below 128, every byte has its highest bit set.
  have high : ∀ value, 0 < value → value < 256 → (0 : UInt8) ≠ UInt8.ofNat value :=
    fun value above below => byte_nonzero value (by omega)
  unfold String.utf8EncodeChar
  dsimp only
  split
  · simpa using high c.val.toNat (by omega) (by omega)
  · split
    · simp only [List.mem_cons, List.not_mem_nil, or_false, not_or]
      exact ⟨high _ (by omega) (by omega), high _ (by omega) (by omega)⟩
    · split
      · simp only [List.mem_cons, List.not_mem_nil, or_false, not_or]
        exact ⟨high _ (by omega) (by omega), high _ (by omega) (by omega), high _ (by omega) (by omega)⟩
      · simp only [List.mem_cons, List.not_mem_nil, or_false, not_or]
        exact ⟨high _ (by omega) (by omega), high _ (by omega) (by omega), high _ (by omega) (by omega),
          high _ (by omega) (by omega)⟩

theorem text_bytes_nonzero (text : String) (free : zeroChar ∉ text.toList) : 0 ∉ textBytes text := by
  rw [text_bytes_chars]
  intro present
  obtain ⟨c, member, inside⟩ := List.mem_flatMap.mp present
  exact char_bytes_nonzero c (fun same => free (same ▸ member)) inside

end Bytes

section Fields

theorem little_endian_injective (count n m : Nat) (small : n < 256 ^ count) (smallOther : m < 256 ^ count)
    (same : littleEndian count n = littleEndian count m) : n = m := by
  induction count generalizing n m with
  | zero =>
      rw [Nat.pow_zero] at small smallOther
      omega
  | succ count ih =>
      rw [Nat.pow_succ] at small smallOther
      obtain ⟨low, high⟩ := List.cons.inj same
      have digits := ih (n / 256) (m / 256) (by omega) (by omega) high
      have last := (UInt8.ofNat_eq_iff_mod_eq_toNat _ _).mp low
      simp only [UInt8.toNat_ofNat', Nat.reducePow] at last
      omega

structure Listable (id : Int) : Prop where
  nonnegative : 0 ≤ id
  small : id < 2 ^ 64
  visible : id % 256 ≠ 0

theorem little_endian_length (count n : Nat) : (littleEndian count n).length = count := by
  induction count generalizing n with
  | zero => rfl
  | succ count ih => rw [littleEndian, List.length_cons, ih]

theorem id_bytes_head (id : Int) (listable : Listable id) (ids : List Int) (rest behind : Bytes) :
    0 :: rest ≠ idBytes (id :: ids) ++ behind := by
  intro same
  have low : (id.toNat % 256) % 256 ≠ 0 := by
    have visible := listable.visible
    have nonnegative := listable.nonnegative
    omega
  exact byte_nonzero _ low (List.cons.inj same).1

theorem id_bytes_parts (left right : List Int) (restLeft restRight : Bytes)
    (leftListable : ∀ id ∈ left, Listable id) (rightListable : ∀ id ∈ right, Listable id)
    (same : idBytes left ++ 0 :: restLeft = idBytes right ++ 0 :: restRight) :
    left = right ∧ restLeft = restRight := by
  induction left generalizing right with
  | nil =>
      cases right with
      | nil => exact ⟨rfl, (List.cons.inj same).2⟩
      | cons id rest => exact absurd same (id_bytes_head id (rightListable id List.mem_cons_self) rest _ _)
  | cons id rest ih =>
      cases right with
      | nil => exact absurd same.symm (id_bytes_head id (leftListable id List.mem_cons_self) rest _ _)
      | cons id' rest' =>
          have own := leftListable id List.mem_cons_self
          have foreign := rightListable id' List.mem_cons_self
          simp only [idBytes, List.flatMap_cons, List.append_assoc] at same
          obtain ⟨head, tail⟩ := List.append_inj same (by simp only [little_endian_length])
          have numbers := little_endian_injective 8 id.toNat id'.toNat
            (by have := own.small; omega) (by have := foreign.small; omega) head
          obtain ⟨equal, behind⟩ := ih rest'
            (fun other member => leftListable other (List.mem_cons_of_mem id member))
            (fun other member => rightListable other (List.mem_cons_of_mem id' member)) tail
          refine ⟨?_, behind⟩
          have first : id = id' := by
            have nonnegative := own.nonnegative
            have nonnegativeOther := foreign.nonnegative
            omega
          rw [first, equal]

-- A position that starts with a zero byte is taken for the end of its list.
example : idBytes [256] ++ 0 :: (idBytes [] ++ [0]) = idBytes [] ++ 0 :: (idBytes [1] ++ [0]) := by decide

theorem ended_parts (left right : List Bytes) (lastLeft lastRight : Bytes)
    (leftFree : ∀ field ∈ left, 0 ∉ field) (rightFree : ∀ field ∈ right, 0 ∉ field)
    (lastLeftFree : 0 ∉ lastLeft) (lastRightFree : 0 ∉ lastRight)
    (same : (left.flatMap fun field => field ++ [0]) ++ lastLeft =
      (right.flatMap fun field => field ++ [0]) ++ lastRight) :
    left = right ∧ lastLeft = lastRight := by
  induction left generalizing right with
  | nil =>
      cases right with
      | nil => exact ⟨rfl, same⟩
      | cons field rest =>
          have zero : (0 : UInt8) ∈ lastLeft := by
            have shape : lastLeft = _ := same
            simp [shape]
          exact absurd zero lastLeftFree
  | cons field rest ih =>
      cases right with
      | nil =>
          have zero : (0 : UInt8) ∈ lastRight := by
            have shape : _ = lastRight := same
            simp [← shape]
          exact absurd zero lastRightFree
      | cons field' rest' =>
          simp only [List.flatMap_cons, List.append_assoc, List.singleton_append] at same
          obtain ⟨head, tail⟩ := separated_parts 0 field field' _ _ (leftFree field List.mem_cons_self)
            (rightFree field' List.mem_cons_self) same
          obtain ⟨equal, behind⟩ := ih rest'
            (fun other member => leftFree other (List.mem_cons_of_mem field member))
            (fun other member => rightFree other (List.mem_cons_of_mem field' member)) tail
          exact ⟨by rw [head, equal], behind⟩

end Fields

section Names

theorem symbol_name_spaceless (name : String) (valid : isSymbolName name = true) : ' ' ∉ name.toList := by
  simp only [isSymbolName, Bool.and_eq_true, List.all_eq_true] at valid
  intro present
  simpa [Text.isSpacing] using valid.2 ' ' present

theorem symbol_name_nonempty (name : String) (valid : isSymbolName name = true) : name.toList ≠ [] := by
  simp only [isSymbolName, Bool.and_eq_true] at valid
  simpa using valid.1

theorem names_nonempty (first : String) (rest : List String) (valid : isSymbolName first = true) :
    " ".intercalate (first :: rest) ≠ "" := by
  intro empty
  have chars := congrArg String.toList empty
  rw [String.toList_intercalate, List.map_cons] at chars
  have nothing : first.toList = [] := by
    cases rest with
    | nil => simpa [List.intercalate] using chars
    | cons second others => simp [List.intercalate] at chars
  exact symbol_name_nonempty first valid nothing

theorem names_injective (left right : List String) (leftValid : ∀ name ∈ left, isSymbolName name = true)
    (rightValid : ∀ name ∈ right, isSymbolName name = true)
    (same : " ".intercalate left = " ".intercalate right) : left = right := by
  have split : ∀ names : List String, names ≠ [] → (∀ name ∈ names, isSymbolName name = true) →
      (" ".intercalate names).toList.splitOn ' ' = names.map String.toList := by
    intro names nonempty valid
    rw [String.toList_intercalate]
    apply List.splitOn_intercalate
    · intro chars member
      obtain ⟨name, present, rfl⟩ := List.mem_map.mp member
      exact symbol_name_spaceless name (valid name present)
    · simpa using nonempty
  cases left with
  | nil =>
      cases right with
      | nil => rfl
      | cons first rest =>
          exact absurd same.symm (names_nonempty first rest (rightValid first List.mem_cons_self))
  | cons first rest =>
      cases right with
      | nil => exact absurd same (names_nonempty first rest (leftValid first List.mem_cons_self))
      | cons second others =>
          have chars : (first :: rest).map String.toList = (second :: others).map String.toList := by
            rw [← split _ (List.cons_ne_nil first rest) leftValid,
              ← split _ (List.cons_ne_nil second others) rightValid, same]
          exact List.map_injective_iff.mpr (fun a b equal => String.toList_inj.mp equal) chars

theorem names_zero_free (names : List String) (free : ∀ name ∈ names, zeroChar ∉ name.toList) :
    zeroChar ∉ (" ".intercalate names).toList := by
  rw [String.toList_intercalate]
  intro present
  obtain ⟨chars, member, inside⟩ := (mem_intercalate ' ' zeroChar (by decide) _).mp present
  obtain ⟨name, own, rfl⟩ := List.mem_map.mp member
  exact free name own inside

theorem kind_zero_free (kind : Kind) : 0 ∉ textBytes kind.name := by
  rw [text_bytes_chars]
  cases kind <;> decide

theorem kind_of_name (kind : Kind) : Kind.ofName kind.name = some kind := by
  cases kind <;> rfl

theorem kind_name_injective (kind other : Kind) (same : kind.name = other.name) : kind = other := by
  have found := kind_of_name kind
  rw [same, kind_of_name other] at found
  exact (Option.some.inj found).symm

end Names

def Table.pairText (t : Table) (p : Pair) : String := t.symbolName p.a ++ " " ++ t.symbolName p.b

structure Statement.Legible (t : Table) (s : Statement) : Prop where
  label : zeroChar ∉ s.label.toList
  formula : zeroChar ∉ (t.render s.formula).toList
  required : ∀ id ∈ s.frame.required, Listable id
  optional : ∀ id ∈ s.frame.optional, Listable id
  pairs : ∀ p ∈ s.frame.pairs, zeroChar ∉ (t.pairText p).toList
  proof : zeroChar ∉ s.proof.toList

theorem content_shape (t : Table) (s : Statement) :
    s.content t = textBytes s.label ++ 0 :: (textBytes s.kind.name ++ 0 :: (textBytes (t.render s.formula) ++
      0 :: (idBytes s.frame.required ++ 0 :: (idBytes s.frame.optional ++
        0 :: (((s.frame.pairs.map fun p => textBytes (t.pairText p)).flatMap fun field => field ++ [0])
          ++ textBytes s.proof))))) := by
  simp only [Statement.content, Table.pairText, text_bytes_append, List.flatMap_map, List.append_assoc,
    List.cons_append, List.nil_append]

theorem content_fields (t other : Table) (s twin : Statement) (legible : s.Legible t)
    (twinLegible : twin.Legible other) (same : s.content t = twin.content other) :
    s.label = twin.label ∧ s.kind = twin.kind ∧ t.render s.formula = other.render twin.formula ∧
      s.frame.required = twin.frame.required ∧ s.frame.optional = twin.frame.optional ∧
      s.frame.pairs.map t.pairText = twin.frame.pairs.map other.pairText ∧ s.proof = twin.proof := by
  rw [content_shape, content_shape] at same
  obtain ⟨label, same⟩ := separated_parts 0 _ _ _ _ (text_bytes_nonzero _ legible.label)
    (text_bytes_nonzero _ twinLegible.label) same
  obtain ⟨kind, same⟩ := separated_parts 0 _ _ _ _ (kind_zero_free s.kind) (kind_zero_free twin.kind) same
  obtain ⟨formula, same⟩ := separated_parts 0 _ _ _ _ (text_bytes_nonzero _ legible.formula)
    (text_bytes_nonzero _ twinLegible.formula) same
  obtain ⟨required, same⟩ := id_bytes_parts _ _ _ _ legible.required twinLegible.required same
  obtain ⟨optional, same⟩ := id_bytes_parts _ _ _ _ legible.optional twinLegible.optional same
  have fieldsFree : ∀ (table : Table) (owner : Statement), owner.Legible table →
      ∀ field ∈ owner.frame.pairs.map fun p => textBytes (table.pairText p), 0 ∉ field := by
    intro table owner own field member
    obtain ⟨p, present, rfl⟩ := List.mem_map.mp member
    exact text_bytes_nonzero _ (own.pairs p present)
  obtain ⟨pairs, proof⟩ := ended_parts _ _ _ _ (fieldsFree t s legible) (fieldsFree other twin twinLegible)
    (text_bytes_nonzero _ legible.proof) (text_bytes_nonzero _ twinLegible.proof) same
  refine ⟨text_bytes_injective _ _ label, kind_name_injective _ _ (text_bytes_injective _ _ kind),
    text_bytes_injective _ _ formula, required, optional, ?_, text_bytes_injective _ _ proof⟩
  have texts : (s.frame.pairs.map t.pairText).map textBytes =
      (twin.frame.pairs.map other.pairText).map textBytes := by
    rw [List.map_map, List.map_map]
    exact pairs
  exact List.map_injective_iff.mpr (fun a b => text_bytes_injective a b) texts

end Lemmata
