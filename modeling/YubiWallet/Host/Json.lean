import YubiWallet.Text

/-! The JSON messages of the host: requests, responses, and what `serde` makes of them. -/
namespace YubiWallet.Host

inductive Number where
  | posInt (n : UInt64)
  | negInt (i : Int)
  | float (bits : UInt64)
deriving DecidableEq, Repr

/-- A JSON text. The members of an object stand in the order of the text. -/
inductive Value where
  | null
  | bool (b : Bool)
  | num (n : Number)
  | str (s : String)
  | arr (items : List Value)
  | obj (members : List (String × Value))

namespace Value

/-- Of members with the same name the last one counts. -/
def get (key : String) : Value → Option Value
  | .obj members => (members.reverse.find? fun m => m.1 = key).map Prod.snd
  | _ => none

def asStr : Value → Option String
  | .str s => some s
  | _ => none

end Value

structure Req where
  id : UInt64
  method : String
  params : Value

structure ErrObj where
  code : String
  message : String
deriving DecidableEq, Repr

structure Resp where
  id : UInt64
  result : Option Value
  error : Option ErrObj

abbrev MethodResult := Except (String × String) Value

/-- A JSON text, cut at its outermost brackets. The parts are texts that were not read yet. -/
inductive Outline where
  | obj (members : List (Bytes × Bytes))
  | arr (items : List Bytes)

/-- What the `serde_json` crate provides: the cut of a whole text, its readers for the parts,
the texts of its errors and its printer. -/
structure SerdeJson where
  outline : Bytes → Option Outline
  readU64 : Bytes → Option UInt64
  readString : Bytes → Option String
  readValue : Bytes → Option Value
  errorText : Bytes → String
  toVec : Resp → Bytes

namespace SerdeJson
variable (S : SerdeJson)

/-- The texts of the members with a name. -/
def fields (key : String) (members : List (Bytes × Bytes)) : List Bytes :=
  (members.filter fun m => S.readString m.1 = some key).map Prod.snd

/-- Every name can be read. The text of an unknown member is skipped. -/
def NamesRead (members : List (Bytes × Bytes)) : Prop :=
  ∀ m ∈ members, (S.readString m.1).isSome

instance (members : List (Bytes × Bytes)) : Decidable (S.NamesRead members) :=
  inferInstanceAs (Decidable (∀ m ∈ members, (S.readString m.1).isSome))

def build (id method : Bytes) (params : List Bytes) : Option Req := do
  let id ← S.readU64 id
  let method ← S.readString method
  match params with
  | [] => some ⟨id, method, .null⟩
  | [params] => return ⟨id, method, ← S.readValue params⟩
  | _ => none

/-- The derived `Deserialize`: no field twice, other members ignored, the default for
`params` alone. A struct is also read from the array of its fields. -/
def deserialize : Outline → Option Req
  | .obj members =>
    if S.NamesRead members then
      match S.fields "id" members, S.fields "method" members with
      | [id], [method] => S.build id method (S.fields "params" members)
      | _, _ => none
    else none
  | .arr (id :: method :: params) => S.build id method params
  | .arr _ => none

/-- `serde_json::from_slice` at the type of requests. -/
def fromSlice (msg : Bytes) : Except String Req :=
  match (S.outline msg).bind S.deserialize with
  | some req => .ok req
  | none => .error (S.errorText msg)

variable {S}

theorem deserialize_obj {members : List (Bytes × Bytes)} {id method : Bytes}
    (hnames : S.NamesRead members) (hid : S.fields "id" members = [id])
    (hmethod : S.fields "method" members = [method]) :
    S.deserialize (.obj members) = S.build id method (S.fields "params" members) := by
  rw [deserialize, if_pos hnames, hid, hmethod]

theorem fromSlice_of_some {msg : Bytes} {o : Outline} {req : Req} (ho : S.outline msg = some o)
    (hreq : S.deserialize o = some req) : S.fromSlice msg = .ok req := by
  rw [fromSlice, ho, Option.bind_some, hreq]

theorem fromSlice_of_none {msg : Bytes} {o : Outline} (ho : S.outline msg = some o)
    (hreq : S.deserialize o = none) : S.fromSlice msg = .error (S.errorText msg) := by
  rw [fromSlice, ho, Option.bind_some, hreq]

end SerdeJson

/-- A result is sent as it is, an error as its code and message. -/
def response (id : UInt64) : MethodResult → Resp
  | .ok v => ⟨id, some v, none⟩
  | .error (code, message) => ⟨id, none, some ⟨code, message⟩⟩

@[simp] theorem response_id (id : UInt64) (result : MethodResult) :
    (response id result).id = id := by
  cases result <;> rfl

/-- What some texts stand for: the members of messages, and their parts. -/
structure Texts where
  messages : List (String × List (String × String))
  numbers : List (String × UInt64)
  strings : List (String × String)
  values : List (String × Value)

namespace Texts

def find {α : Type} (known : List (String × α)) (text : Bytes) : Option α :=
  (known.find? fun e => asBytes e.1 = text).map Prod.snd

def names : List (String × String) :=
  [("\"id\"", "id"), ("\"method\"", "method"), ("\"params\"", "params")]

def parts (members : List (String × String)) : List (Bytes × Bytes) :=
  members.map fun m => (asBytes m.1, asBytes m.2)

/-- Readers that know the names of the fields and these texts, and refuse all others. -/
def serde (T : Texts) (errorText : Bytes → String) (toVec : Resp → Bytes) : SerdeJson where
  outline text := (find T.messages text).map fun members => .obj (parts members)
  readU64 := find T.numbers
  readString := find (names ++ T.strings)
  readValue := find T.values
  errorText := errorText
  toVec := toVec

@[simp] theorem find_nil {α : Type} (text : Bytes) : find ([] : List (String × α)) text = none := rfl

@[simp] theorem find_cons {α : Type} (s t : String) (a : α) (known : List (String × α)) :
    find ((s, a) :: known) (asBytes t) = if s = t then some a else find known (asBytes t) := by
  unfold find
  by_cases h : s = t
  · simp [h]
  · simp [h, asBytes_inj]

section
variable {T : Texts} {errorText : Bytes → String} {toVec : Resp → Bytes} {text id method : String}
  {n : UInt64} {m : String}

/-- A message of an id and a method. -/
theorem fromSlice_method
    (hmessage : find T.messages (asBytes text) = some [("\"id\"", id), ("\"method\"", method)])
    (hid : find T.numbers (asBytes id) = some n)
    (hmethod : (T.serde errorText toVec).readString (asBytes method) = some m) :
    (T.serde errorText toVec).fromSlice (asBytes text) = .ok ⟨n, m, .null⟩ := by
  have houtline : (T.serde errorText toVec).outline (asBytes text) = _ :=
    congrArg (Option.map fun members => Outline.obj (parts members)) hmessage
  refine SerdeJson.fromSlice_of_some houtline ?_
  rw [@SerdeJson.deserialize_obj _ _ (asBytes id) (asBytes method)]
  · have hparams : (T.serde errorText toVec).fields "params"
        (parts [("\"id\"", id), ("\"method\"", method)]) = [] := by
      simp [SerdeJson.fields, parts, serde, names]
    have hnumber : (T.serde errorText toVec).readU64 (asBytes id) = some n := hid
    rw [hparams, SerdeJson.build, hnumber, hmethod]
    rfl
  · simp [SerdeJson.NamesRead, parts, serde, names]
  · simp [SerdeJson.fields, parts, serde, names]
  · simp [SerdeJson.fields, parts, serde, names]

theorem fromSlice_params {params : String}
    (hmessage : find T.messages (asBytes text) =
      some [("\"id\"", id), ("\"method\"", method), ("\"params\"", params)])
    (hid : find T.numbers (asBytes id) = some n)
    (hmethod : (T.serde errorText toVec).readString (asBytes method) = some m) :
    (T.serde errorText toVec).fromSlice (asBytes text) =
      (find T.values (asBytes params)).elim (.error (errorText (asBytes text))) fun v => .ok ⟨n, m, v⟩ := by
  have houtline : (T.serde errorText toVec).outline (asBytes text) = _ :=
    congrArg (Option.map fun members => Outline.obj (parts members)) hmessage
  have hread : (T.serde errorText toVec).deserialize
      (.obj (parts [("\"id\"", id), ("\"method\"", method), ("\"params\"", params)])) =
        (find T.values (asBytes params)).map fun v => ⟨n, m, v⟩ := by
    rw [@SerdeJson.deserialize_obj _ _ (asBytes id) (asBytes method)]
    · have hparams : (T.serde errorText toVec).fields "params"
          (parts [("\"id\"", id), ("\"method\"", method), ("\"params\"", params)]) =
            [asBytes params] := by
        simp [SerdeJson.fields, parts, serde, names]
      have hnumber : (T.serde errorText toVec).readU64 (asBytes id) = some n := hid
      rw [hparams, SerdeJson.build, hnumber, hmethod]
      change (find T.values (asBytes params)).bind _ = _
      cases find T.values (asBytes params) <;> rfl
    · simp [SerdeJson.NamesRead, parts, serde, names]
    · simp [SerdeJson.fields, parts, serde, names]
    · simp [SerdeJson.fields, parts, serde, names]
  cases hvalue : find T.values (asBytes params) with
  | none => exact SerdeJson.fromSlice_of_none houtline (by rw [hread, hvalue]; rfl)
  | some v => exact SerdeJson.fromSlice_of_some houtline (by rw [hread, hvalue]; rfl)

end
end Texts
end YubiWallet.Host
