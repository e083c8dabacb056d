import RateWise.RowRules

set_option autoImplicit false

namespace Interleave

section Recording

variable {I : Interface} {ε α β : Type} {credible : (s : I.Stmt) → I.Reply s → Prop}

end Recording

section Machine

variable {I : Interface} {E : Engine I} {ε α : Type} {n : Nat} {credible : (s : I.Stmt) → I.Reply s → Prop}

end Machine

end Interleave
