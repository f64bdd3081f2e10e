import IconModules.Text.Blank
import IconModules.Text.LetterCase
import IconModules.Text.Replace
/-!
# Names in the generated code

* **`symbol?`** is the identifier of an icon. An identifier cannot begin with a digit, so an icon
  whose name does has one only if a table gives it.
* **`moduleName`** and **`moduleFile`** turn the name of a family into the name of its module and
  into the place of its file. Both come from one rule, `joinWords`, which differs in the separator.
* **`title`** is the heading under which a category is documented.
-/

namespace IconModules.Naming

/-! ### Icons -/

/-- Whether a name begins with a digit. Only the ten plain digits count. -/
def beginsWithDigit (name : String) : Bool :=
  match name.toList with
  | [] => false
  | c :: _ => c.isDigit

/-- The identifier of an icon, if it has one: what the table of exceptions says, and otherwise the
name itself unless it begins with a digit. -/
def symbol? (exceptions : List (String × String)) (name : String) : Option String :=
  match exceptions.lookup name with
  | some mapped => some mapped
  | none => if beginsWithDigit name then none else some name

/-! ### Families -/

/-- A family's name as one path with the given separator: the spaces of the leading words become
separators, then so does the first space left, and the remaining spaces go. -/
def joinWords (family leading separator : String) : String :=
  Text.replace " " "" <| Text.replaceFirst ' ' separator <|
    Text.replace leading (Text.replace " " separator leading) family

def moduleName (family leading : String) : String :=
  joinWords family leading "."

/-- Where a family's module is stored, relative to the folder of all modules. -/
def moduleFile (family leading extension : String) : String :=
  joinWords family leading "/" ++ "." ++ extension

/-! ### Categories -/

def dropIdEnding (s : String) : String :=
  match s.toList.reverse with
  | 'd' :: 'i' :: ' ' :: rest => String.ofList rest.reverse
  | _ => s

/-- The heading of a category: underscores are read as spaces, leading blanks and a final ` id` are
left out, and only the first letter is a capital. -/
def title (category : String) : String :=
  Text.capitalize <| Text.lowerCase <| dropIdEnding <| Text.trimStart <|
    Text.replace "_" " " category

end IconModules.Naming
