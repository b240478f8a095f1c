/-!
# Request targets

What a request asks for is named by a path, which a query and a fragment may follow. The path may
stand by itself or behind a scheme and an authority, and is then a slash if nothing is written.
-/

namespace BlockFeed.Metrics.Target

/-- A character of a scheme. -/
def isSchemeChar (c : Char) : Bool := c.isAlphanum || c = '+' || c = '-' || c = '.'

/-- A character that ends a path. -/
def endsPath (c : Char) : Bool := c = '?' || c = '#'

/-- A character that ends an authority. -/
def endsAuthority (c : Char) : Bool := c = '/' || endsPath c

/-- What stands behind a scheme and its authority, which is not empty. -/
def afterAuthority? (cs : List Char) : Option (List Char) :=
  match cs.dropWhile isSchemeChar with
  | ':' :: '/' :: '/' :: rest =>
    if rest.head?.all endsAuthority then none else some (rest.dropWhile (!endsAuthority ·))
  | _ => none

/-- The path of a target, if it has one. -/
def path? (target : String) : Option String :=
  let cs := target.toList
  match cs with
  | '/' :: _ => some (String.ofList (cs.takeWhile (!endsPath ·)))
  | _ =>
    (afterAuthority? cs).map fun rest =>
      let path := rest.takeWhile (!endsPath ·)
      if path.isEmpty then "/" else String.ofList path

end BlockFeed.Metrics.Target
