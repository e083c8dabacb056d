import Mathlib.Order.Basic
import Mathlib.Data.Prod.Lex
import Mathlib.Data.List.Lex
import RateWise.Uuid
import RateWise.Base64
import RateWise.JsonReads
import RateWise.Utf8

set_option autoImplicit false

namespace RateWise

theorem uuid_text_injective : Function.Injective Uuid.text := by
  intro a b same
  cases a
  cases b
  cases same
  rfl

-- Values of the uuid type compare as their sixteen bytes do.
instance : LinearOrder Uuid := LinearOrder.lift' Uuid.text uuid_text_injective

-- What the driver and the server make of values that the code passes on: the
-- text of a timestamptz, in microseconds, and what the two types read.
structure Postgres where
  timestamptzOut : Int → Text
  timestamptzIn : Text → Option Int
  uuidInput : Text → Option Uuid
  prepareValue : Json.Value → Option Text
  uuid_text : ∀ id, uuidInput id.text = some id
  prepare_string : ∀ units, prepareValue (.string units) = some (parameter units)

def truthy : Json.Value → Bool
  | .null => false
  | .bool value => value
  | .number literal => !Json.zeroLiteral literal
  | .string units => units ≠ []
  | .array _ => true
  | .object _ => true

-- A property that is not there is undefined; of two with one name the last
-- one stays.
def property (name : String) : Json.Value → Option Json.Value
  | .object members => (members.reverse.find? fun member => member.1 = Utf16.ofText name.toList).map Prod.snd
  | _ => none

def cursorObject (createdAt id : JsString) : Json.Value :=
  .object [(Utf16.ofText "createdAt".toList, .string createdAt), (Utf16.ofText "id".toList, .string id)]

def encodeCursor (createdAt id : JsString) : JsString :=
  Utf16.ofText (Base64.encode (Utf8.encode (Json.stringify (cursorObject createdAt id))))

-- Nothing when JSON.parse throws.
def decodeCursor (cursor : JsString) : Option Json.Value := Json.parse (Utf8.decode (Base64.decode cursor))

theorem cursor_object_sound (createdAt id : JsString) : Json.Sound (cursorObject createdAt id) := by
  refine .object _ fun member listed => ?_
  simp only [List.mem_cons, List.not_mem_nil, or_false] at listed
  rcases listed with rfl | rfl <;> exact .string _

theorem decode_encode_cursor (createdAt id : JsString) :
    decodeCursor (encodeCursor createdAt id) = some (cursorObject createdAt id) := by
  rw [decodeCursor, encodeCursor, Base64.decode_encode _ (Utf8.encode_small _), Utf8.decode_encode]
  exact Json.parse_stringify _ (cursor_object_sound createdAt id)

theorem encode_cursor_nonempty (createdAt id : JsString) : encodeCursor createdAt id ≠ [] := by
  intro empty
  have decoded := decode_encode_cursor createdAt id
  rw [empty] at decoded
  cases decoded

end RateWise
