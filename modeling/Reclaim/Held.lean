namespace Reclaim.Held

variable {α : Type}

-- The thing at the place, and what is held after it is given away. With `keep` the caller goes on
-- holding it, which is how a thing comes to be given away twice.
def pick? (items : List α) (place : Nat) (keep : Bool) : Option (α × List α) :=
  let index := place % items.length
  match items[index]? with
  | none => none
  | some item => some (item, if keep then items else items.eraseIdx index)

end Reclaim.Held
