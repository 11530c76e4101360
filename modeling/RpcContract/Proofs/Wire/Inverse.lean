import RpcContract.Proofs.Induction
import RpcContract.Wire

/-!
# Encoding and decoding undo each other

The wire has no undefined value, so the two directions lose something, and this module says what.
Decoding and encoding again loses the object members that hold the placeholder; encoding and
decoding again loses the object members that hold undefined, and the difference between tuples and
lists.  Nothing else changes, at any depth: items keep their positions and members their order.
-/

namespace RpcContract

namespace Value

/-! ## What may stand in a value -/

mutual

/-- Whether the value and everything in it passes a test. -/
def throughout (p : Value → Bool) : Value → Bool
  | .list items => p (.list items) && throughoutItems p items
  | .tuple items => p (.tuple items) && throughoutItems p items
  | .record members => p (.record members) && throughoutMembers p members
  | v => p v

def throughoutItems (p : Value → Bool) : List Value → Bool
  | [] => true
  | item :: rest => throughout p item && throughoutItems p rest

def throughoutMembers (p : Value → Bool) : List (Text × Value) → Bool
  | [] => true
  | (_, v) :: rest => throughout p v && throughoutMembers p rest

end

/-- A test that everything in the value passes is passed by the value. -/
theorem of_throughout {p : Value → Bool} {v : Value} (h : v.throughout p = true) : p v = true := by
  cases v <;> simp_all [throughout]

theorem throughoutItems_iff {p : Value → Bool} {items : List Value} :
    throughoutItems p items = true ↔ ∀ item ∈ items, item.throughout p = true := by
  induction items with
  | nil => simp [throughoutItems]
  | cons item rest ih => simp [throughoutItems, ih]

theorem throughoutMembers_iff {p : Value → Bool} {members : List (Text × Value)} :
    throughoutMembers p members = true ↔ ∀ member ∈ members, member.2.throughout p = true := by
  induction members with
  | nil => simp [throughoutMembers]
  | cons member rest ih => simp [throughoutMembers, ih]

/-- What passes throughout a list passes throughout its items. -/
theorem throughout_of_mem_list {p : Value → Bool} {items : List Value}
    (h : (Value.list items).throughout p = true) :
    ∀ item ∈ items, item.throughout p = true :=
  throughoutItems_iff.1 (Bool.and_eq_true_iff.1 h).2

/-- What passes throughout a tuple passes throughout its items. -/
theorem throughout_of_mem_tuple {p : Value → Bool} {items : List Value}
    (h : (Value.tuple items).throughout p = true) :
    ∀ item ∈ items, item.throughout p = true :=
  throughoutItems_iff.1 (Bool.and_eq_true_iff.1 h).2

/-- What passes throughout an object passes throughout the values of its members. -/
theorem throughout_of_mem_record {p : Value → Bool} {members : List (Text × Value)}
    (h : (Value.record members).throughout p = true) :
    ∀ member ∈ members, member.2.throughout p = true :=
  throughoutMembers_iff.1 (Bool.and_eq_true_iff.1 h).2

/-- Whether the value is one that JSON has a word for. -/
def isJson : Value → Bool :=
  throughout fun
    | .undefined | .tuple _ | .host _ => false
    | _ => true

/-- Whether the value is the text that stands for undefined on the wire. -/
def isPlaceholder : Value → Bool
  | .text t => t == Wire.placeholder
  | _ => false

/-- Whether no text in the value is the placeholder.  Names of members do not count. -/
def avoidsPlaceholder : Value → Bool := throughout fun v => !v.isPlaceholder

/-! ## What the codec loses -/

mutual

/-- The value without the object members, at any depth, whose values are dropped. -/
def without (dropped : Value → Bool) : Value → Value
  | .list items => .list (withoutItems dropped items)
  | .tuple items => .tuple (withoutItems dropped items)
  | .record members => .record (withoutMembers dropped members)
  | v => v

def withoutItems (dropped : Value → Bool) : List Value → List Value
  | [] => []
  | item :: rest => without dropped item :: withoutItems dropped rest

def withoutMembers (dropped : Value → Bool) : List (Text × Value) → List (Text × Value)
  | [] => []
  | (name, v) :: rest =>
    if dropped v then withoutMembers dropped rest
    else (name, without dropped v) :: withoutMembers dropped rest

end

mutual

/-- The value with lists in the place of tuples, at any depth. -/
def untupled : Value → Value
  | .list items | .tuple items => .list (untupledItems items)
  | .record members => .record (untupledMembers members)
  | v => v

def untupledItems : List Value → List Value
  | [] => []
  | item :: rest => untupled item :: untupledItems rest

def untupledMembers : List (Text × Value) → List (Text × Value)
  | [] => []
  | (name, v) :: rest => (name, untupled v) :: untupledMembers rest

end

/-- Neither loss makes a value undefined or takes that from it. -/
theorem isUndefined_untupled_without (dropped : Value → Bool) (v : Value) :
    (v.without dropped).untupled.isUndefined = v.isUndefined := by
  cases v <;> rfl

end Value

namespace Wire

open Value

/-! ## Decoding, then encoding -/

/-- Of JSON values only the placeholder decodes to undefined. -/
theorem isUndefined_decode {v : Value} (h : v.isJson = true) :
    (decode v).isUndefined = v.isPlaceholder := by
  cases v with
  | undefined => exact absurd (of_throughout h) (by simp)
  | text t =>
    by_cases ht : t = placeholder <;> simp [decode, ht, Value.isUndefined, Value.isPlaceholder]
  | _ => rfl

theorem encodeItems_decodeItems {items : List Value}
    (h : ∀ item ∈ items, encode (decode item) = item.without isPlaceholder) :
    encodeItems (decodeItems items) = withoutItems isPlaceholder items := by
  induction items with
  | nil => rfl
  | cons item rest ih =>
    have hrest := ih fun other hother => h other (List.mem_cons_of_mem _ hother)
    simp only [decodeItems, encodeItems, withoutItems, h item List.mem_cons_self, hrest]

/-- Decoding drops a member after it has decoded its value, and then nothing is left for encoding to
drop. -/
theorem encodeMembers_decodeMembers {members : List (Text × Value)}
    (hjson : ∀ member ∈ members, member.2.isJson = true)
    (h : ∀ member ∈ members, encode (decode member.2) = member.2.without isPlaceholder) :
    encodeMembers (decodeMembers members) = withoutMembers isPlaceholder members := by
  induction members with
  | nil => rfl
  | cons member rest ih =>
    obtain ⟨name, v⟩ := member
    have hrest := ih (fun other hother => hjson other (List.mem_cons_of_mem _ hother))
      fun other hother => h other (List.mem_cons_of_mem _ hother)
    have hundefined := isUndefined_decode (hjson (name, v) List.mem_cons_self)
    have hv : encode (decode v) = v.without isPlaceholder := h (name, v) List.mem_cons_self
    simp only [decodeMembers, withoutMembers, hundefined]
    by_cases hdrop : v.isPlaceholder = true
    · -- The value decodes to undefined, and the member is dropped on both sides.
      rw [if_pos hdrop, if_pos hdrop]
      exact hrest
    · rw [if_neg hdrop, if_neg hdrop]
      -- What decoding has kept encoding keeps.
      have hkept : (decode v).isUndefined = false := by
        rw [hundefined]
        exact Bool.eq_false_iff.2 hdrop
      simp only [encodeMembers, hkept, Bool.false_eq_true, if_false, hv, hrest]

/-- A JSON value that is decoded and encoded again has lost the members that held the
placeholder. -/
theorem encode_decode {v : Value} (h : v.isJson = true) :
    encode (decode v) = v.without isPlaceholder := by
  induction v using Value.structural with
  -- JSON has no word for undefined, for tuples and for values of the host.
  | undefined => exact absurd (of_throughout h) (by simp)
  | tuple items _ => exact absurd (of_throughout h) (by simp)
  -- The one text that decodes to something else is brought back by encoding.
  | text t => by_cases ht : t = placeholder <;> simp [decode, encode, without, ht]
  | list items ih =>
    have hitems := throughout_of_mem_list h
    have hlist := encodeItems_decodeItems fun item hitem => ih item hitem (hitems item hitem)
    simp only [decode, encode, without, hlist]
  | record members ih =>
    have hmembers := throughout_of_mem_record h
    have hrecord := encodeMembers_decodeMembers hmembers
      fun member hmember => ih member hmember (hmembers member hmember)
    simp only [decode, encode, without, hrecord]
  | _ => rfl

/-! ## Encoding, then decoding -/

theorem decodeItems_encodeItems {items : List Value}
    (h : ∀ item ∈ items, decode (encode item) = (item.without isUndefined).untupled) :
    decodeItems (encodeItems items) = untupledItems (withoutItems isUndefined items) := by
  induction items with
  | nil => rfl
  | cons item rest ih =>
    have hrest := ih fun other hother => h other (List.mem_cons_of_mem _ hother)
    simp only [decodeItems, encodeItems, withoutItems, untupledItems, h item List.mem_cons_self,
      hrest]

/-- Encoding drops a member before it encodes its value, and of what it keeps nothing decodes to
undefined. -/
theorem decodeMembers_encodeMembers {members : List (Text × Value)}
    (h : ∀ member ∈ members, decode (encode member.2) = (member.2.without isUndefined).untupled) :
    decodeMembers (encodeMembers members)
      = untupledMembers (withoutMembers isUndefined members) := by
  induction members with
  | nil => rfl
  | cons member rest ih =>
    obtain ⟨name, v⟩ := member
    have hrest := ih fun other hother => h other (List.mem_cons_of_mem _ hother)
    have hv : decode (encode v) = (v.without isUndefined).untupled :=
      h (name, v) List.mem_cons_self
    simp only [encodeMembers, withoutMembers]
    -- The member is never written.
    by_cases hdrop : v.isUndefined = true
    · rw [if_pos hdrop, if_pos hdrop]
      exact hrest
    · rw [if_neg hdrop, if_neg hdrop]
      -- What encoding has kept decoding keeps.
      have hkept : (v.without isUndefined).untupled.isUndefined = false := by
        rw [isUndefined_untupled_without]
        exact Bool.eq_false_iff.2 hdrop
      simp only [decodeMembers, untupledMembers, hv, hkept, Bool.false_eq_true, if_false, hrest]

/-- A value in which no text is the placeholder, encoded and decoded again, has lost its tuples and
the members that held undefined. -/
theorem decode_encode {v : Value} (h : v.avoidsPlaceholder = true) :
    decode (encode v) = (v.without isUndefined).untupled := by
  induction v using Value.structural with
  -- Undefined is written as the placeholder and comes back.
  | undefined => rfl
  | text t =>
    have ht : t ≠ placeholder := by simpa [isPlaceholder] using of_throughout h
    simp only [encode, decode, if_neg ht, without, untupled]
  | list items ih =>
    have hitems := throughout_of_mem_list h
    have hlist := decodeItems_encodeItems fun item hitem => ih item hitem (hitems item hitem)
    simp only [encode, decode, without, untupled, hlist]
  -- A tuple is written as a list, and nothing tells that it was one.
  | tuple items ih =>
    have hitems := throughout_of_mem_tuple h
    have hlist := decodeItems_encodeItems fun item hitem => ih item hitem (hitems item hitem)
    simp only [encode, decode, without, untupled, hlist]
  | record members ih =>
    have hmembers := throughout_of_mem_record h
    have hrecord := decodeMembers_encodeMembers
      fun member hmember => ih member hmember (hmembers member hmember)
    simp only [encode, decode, without, untupled, hrecord]
  | _ => rfl

/-! ## The two round trips -/

/-- **The codec is an inverse up to its losses, in both directions.**  Arguments that come from JSON
lose the members that hold the placeholder; host arguments in which no text is the placeholder lose
their tuples and the members that hold undefined. -/
theorem codec_inverse :
    (∀ args : List Value, (∀ arg ∈ args, arg.isJson = true) →
      encodeArgs (decodeArgs args) = args.map (without isPlaceholder)) ∧
    (∀ args : List Value, (∀ arg ∈ args, arg.avoidsPlaceholder = true) →
      decodeArgs (encodeArgs args) = args.map fun arg => (arg.without isUndefined).untupled) := by
  constructor
  · intro args hjson
    -- Arguments are items that no list holds together.
    simp only [encodeArgs, decodeArgs, encodeItems_eq_map, decodeItems_eq_map, List.map_map]
    exact List.map_congr_left fun arg harg => encode_decode (hjson arg harg)
  · intro args havoids
    simp only [encodeArgs, decodeArgs, encodeItems_eq_map, decodeItems_eq_map, List.map_map]
    exact List.map_congr_left fun arg harg => decode_encode (havoids arg harg)

/-- Both round trips where placeholders and undefined values stand at the top, in a list and in an
object. -/
theorem codec_inverse_mixed :
    encodeArgs (decodeArgs [.text placeholder,
        .list [.text placeholder, .record [("a".text, .text placeholder), ("b".text, .int 1)]]])
      = [.text placeholder, .list [.text placeholder, .record [("b".text, .int 1)]]] ∧
    decodeArgs (encodeArgs [.undefined,
        .tuple [.undefined, .record [("a".text, .undefined), ("b".text, .tuple [])]]])
      = [.undefined, .list [.undefined, .record [("b".text, .list [])]]] := by
  refine ⟨(codec_inverse.1 _ ?_).trans ?_, (codec_inverse.2 _ ?_).trans ?_⟩
  · decide
  · rfl
  · decide
  · rfl

end Wire

end RpcContract
