import RepairShop.Error

/-!
The pricing rule of a rental phone. A free rental costs nothing: its price must be absent or
zero and is stored as `0.0`. A rental that is explicitly not free needs a price. Otherwise a
price, when given, must be above zero. The rule reads its inputs as values, so a free flag
counts by whether it is empty and a price is compared as a number.
-/

namespace RepairShop.Rental

open Json

/-- Where pricing refusals point. -/
def priceLocation : String := "rental_phone.price"

/-- The stored price under the pricing rule, or the refusal. -/
def checkPricing (isFree price : Value) : Result Value :=
  let loc := some priceLocation
  if isFree.truthy then
    if price.isNull || price.same (.int 0) then pure (.float 0.0)
    else throw (badRequest "Price must be 0 when is_free is true" loc)
  else if price.isNull then
    match isFree with
    | .bool false => throw (badRequest "Price is required when is_free is false" loc)
    | _ => pure .null
  else
    match price.num? with
    | some n =>
      match n.compare? (.int 0) with
      | some .gt | none => pure price
      | _ => throw (badRequest "Price must be greater than 0 when is_free is false or undefined" loc)
    | none => throw (.fault (.unordered "<=" price (.int 0)))

end RepairShop.Rental
