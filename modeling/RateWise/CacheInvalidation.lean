import RateWise.AccountFlow
import RateWise.Records

set_option autoImplicit false

namespace RateWise

open Interleave

namespace AccountRequest

def target : AccountRequest → Option Text
  | .verify (.signed _ payload) => some payload.id
  | .delete (.signed _ payload) => some payload.id
  | .suspend userId => some userId
  | .reactivate userId => some userId
  | _ => none

def deletes : AccountRequest → Bool
  | .delete _ => true
  | _ => false

end AccountRequest

section Logging

end Logging

namespace AccountRequest

end AccountRequest

end RateWise
