import EventWorker.Sealing.Toolkit

/-!
# Negotiation

Two peers can use a suite when both offer it, compared by normal text. Any of
the common suites may be taken.
-/

namespace EventWorker.Negotiation

/-- The own suites that the other side offers too, in own order. -/
def common (offered own : List Suite) : List Suite :=
  own.filter fun s => offered.any fun t => t.normalized = s.normalized

/-- The common suite at a place chosen by `pick`, which is given their number. -/
def choose (pick : Nat → Nat) (offered own : List Suite) : Except SealError Suite :=
  let suites := common offered own
  match suites[pick suites.length % suites.length]? with
  | some s => .ok s
  | none => .error .noCommonSuite

end EventWorker.Negotiation
