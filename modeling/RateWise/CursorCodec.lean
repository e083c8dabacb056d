import RateWise.Pagination

set_option autoImplicit false

namespace RateWise

namespace CursorCodec

def content (cursor : JsString) : Text := Utf8.decode (Base64.decode cursor)

-- The pagination goes on after the record that the cursor was made for, or
-- rejects the cursor.
def Taken (cursor : JsString) : Prop :=
  PaginationService.decodedCursor (some cursor) = .error .malformedJson ∨
  ∃ createdAt id decoded, cursor = encodeCursor createdAt id ∧
    PaginationService.decodedCursor (some cursor) = .ok (some decoded) ∧ truthy decoded = true ∧
    property "createdAt" decoded = some (.string createdAt) ∧ property "id" decoded = some (.string id)

-- What follows the padding is not read, and a wide unit counts by its low byte.
example : decodeCursor (Utf16.ofText "bnVsbA==bnVsbA==".toList) = some .null := rfl

example : decodeCursor (0x162 :: Utf16.ofText "nVsbA==".toList) = some .null := rfl

end CursorCodec

end RateWise
