import Implementers.Ty.Basic

namespace Implementers

/-!
# Type identity

Named types are identical when they name the same declaration with identical arguments; composite
types are identical when their structure is.  Parameter names take no part.  Two interfaces are
identical when they have equally many methods and each method of one is found in the other with an
identical signature, in whatever order.
-/

namespace Owner

/-- Whether two owners are the same. -/
def same : Owner → Owner → Bool
  | .predeclared, .predeclared => true
  | .local left, .local right => left.same right
  | .imported left, .imported right => left == right
  | _, _ => false

end Owner

mutual

/-- Whether two types are identical. -/
def Ty.same : Ty → Ty → Bool
  | .named leftOwner leftName leftArgs, .named rightOwner rightName rightArgs =>
      leftOwner.same rightOwner && leftName == rightName && Ty.sameList leftArgs rightArgs
  | .pointer left, .pointer right => left.same right
  | .slice left, .slice right => left.same right
  | .array leftLength left, .array rightLength right =>
      leftLength == rightLength && left.same right
  | .map leftKey leftValue, .map rightKey rightValue =>
      leftKey.same rightKey && leftValue.same rightValue
  | .chan leftDirection left, .chan rightDirection right =>
      leftDirection == rightDirection && left.same right
  | .func left, .func right => left.same right
  | .struct left, .struct right => StructField.sameList left right
  | .interface left, .interface right => left.same right
  | _, _ => false
  termination_by structural left => left

/-- Whether two lists hold identical types in the same places. -/
def Ty.sameList : List Ty → List Ty → Bool
  | [], [] => true
  | left :: lefts, right :: rights => left.same right && Ty.sameList lefts rights
  | _, _ => false
  termination_by structural left => left

/-- Whether two signatures are identical. -/
def Signature.same : Signature → Signature → Bool
  | .mk leftParams leftResults leftVariadic, .mk rightParams rightResults rightVariadic =>
      Ty.sameList leftParams rightParams && Ty.sameList leftResults rightResults &&
        leftVariadic == rightVariadic
  termination_by structural left => left

/-- Whether two fields are identical. -/
def StructField.same : StructField → StructField → Bool
  | .mk leftName leftType leftEmbedded, .mk rightName rightType rightEmbedded =>
      leftName == rightName && leftType.same rightType && leftEmbedded == rightEmbedded
  termination_by structural left => left

/-- Whether two lists hold identical fields in the same places. -/
def StructField.sameList : List StructField → List StructField → Bool
  | [], [] => true
  | left :: lefts, right :: rights => left.same right && StructField.sameList lefts rights
  | _, _ => false
  termination_by structural left => left

/-- Whether the first method of a name in a list has a signature. -/
def Method.provides : List Method → MethodName → Signature → Bool
  | [], _, _ => false
  | .mk ownName ownSignature :: rest, name, signature =>
      if ownName.same name then
        ownSignature.same signature
      else
        Method.provides rest name signature
  termination_by structural left => left

/-- Whether two method sets hold the same methods. -/
def MethodSet.same : MethodSet → MethodSet → Bool
  | .mk left, .mk right =>
      left.length == right.length &&
        right.all fun method => Method.provides left method.name method.signature
  termination_by structural left => left

end

namespace MethodSet

/-- Whether a set has every required method with an identical signature. -/
def satisfies
    (set required : MethodSet) :
    Bool :=
  required.methods.all fun method => Method.provides set.methods method.name method.signature

end MethodSet

end Implementers
