import RpcContract.Value.Basic

/-!
# The wire form of arguments

JSON has no word for an undefined value, so a fixed placeholder text stands for it on the wire.
Decoding puts the undefined value back, encoding puts the placeholder in, and materializing turns
decoded arguments into what a function is called with.
-/

namespace RpcContract.Wire

/-- The text that stands for an undefined value on the wire. -/
def placeholder : Text := "__TELEPHONE__UNDEFINED__alphaBetaGama_check123__".text

mutual

/-- Puts undefined values in the place of their placeholders.  Items of lists keep their positions;
a member of an object that would be undefined disappears. -/
def decode : Value → Value
  | .text t => if t = placeholder then .undefined else .text t
  | .list items => .list (decodeItems items)
  | .record members => .record (decodeMembers members)
  | v => v

def decodeItems : List Value → List Value
  | [] => []
  | item :: rest => decode item :: decodeItems rest

def decodeMembers : List (Text × Value) → List (Text × Value)
  | [] => []
  | (name, v) :: rest =>
    let decoded := decode v
    if decoded.isUndefined then decodeMembers rest else (name, decoded) :: decodeMembers rest

end

mutual

/-- Puts placeholders in the place of undefined values.  Tuples become lists; an undefined member
of an object disappears. -/
def encode : Value → Value
  | .undefined => .text placeholder
  | .list items | .tuple items => .list (encodeItems items)
  | .record members => .record (encodeMembers members)
  | v => v

def encodeItems : List Value → List Value
  | [] => []
  | item :: rest => encode item :: encodeItems rest

def encodeMembers : List (Text × Value) → List (Text × Value)
  | [] => []
  | (name, v) :: rest =>
    if v.isUndefined then encodeMembers rest else (name, encode v) :: encodeMembers rest

end

mutual

/-- Puts null in the place of undefined values, except inside tuples. -/
def materialize : Value → Value
  | .undefined => .null
  | .list items => .list (materializeItems items)
  | .record members => .record (materializeMembers members)
  | v => v

def materializeItems : List Value → List Value
  | [] => []
  | item :: rest => materialize item :: materializeItems rest

def materializeMembers : List (Text × Value) → List (Text × Value)
  | [] => []
  | (name, v) :: rest => (name, materialize v) :: materializeMembers rest

end

/-- The arguments without the undefined ones at their end. -/
def trimUndefined : List Value → List Value
  | [] => []
  | v :: rest =>
    match trimUndefined rest with
    | [] => if v.isUndefined then [] else [v]
    | trimmed => v :: trimmed

/-- Decodes the arguments of a call. -/
def decodeArgs (args : List Value) : List Value := decodeItems args

/-- Encodes the arguments of a call. -/
def encodeArgs (args : List Value) : List Value := encodeItems args

/-- The arguments that a function is called with: undefined ones at the end are left out, so that
the function's own defaults apply, and every other undefined value becomes null. -/
def materializeArgs (args : List Value) : List Value := materializeItems (trimUndefined args)

theorem decodeItems_eq_map (items : List Value) : decodeItems items = items.map decode := by
  induction items with
  | nil => rfl
  | cons item rest ih => simp [decodeItems, ih]

theorem encodeItems_eq_map (items : List Value) : encodeItems items = items.map encode := by
  induction items with
  | nil => rfl
  | cons item rest ih => simp [encodeItems, ih]

theorem materializeItems_eq_map (items : List Value) :
    materializeItems items = items.map materialize := by
  induction items with
  | nil => rfl
  | cons item rest ih => simp [materializeItems, ih]

end RpcContract.Wire
