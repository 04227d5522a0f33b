/-!
# Resource names

What abilities cost is called differently in each language. A champion's
record gives the English name (`Mana`, `No Cost`); `Resource.nameIn` is its name
in a locale. A locale or a resource without an entry falls back to English,
and then to the name as given.
-/

namespace SpellText

/-- A language with a table of resource names. -/
inductive Language
  | english
  | russian
  deriving DecidableEq, Repr

namespace Language

/-- The code of the language. -/
def code : Language → String
  | english => "en"
  | russian => "ru"

/-- The language of a locale, whose letters may be of either case. -/
def ofLocale? (locale : String) : Option Language :=
  let letters := locale.toList.map Char.toLower
  if letters = ['e', 'n'] then some english
  else if letters = ['r', 'u'] then some russian
  else none

end Language

namespace Resource

/-- The resources that keep their name in English. -/
def englishNames : List String :=
  ["Mana", "Energy", "Fury", "Rage", "Bloodthirst", "Heat", "Shield", "Health", "No Cost", "Flow",
    "Grit", "Ferocity", "Courage", "Rage Power"]

/-- The Russian names of the resources. -/
def russianNames : List (String × String) :=
  [("Mana", "Мана"), ("Energy", "Энергия"), ("Fury", "Ярость"), ("Rage", "Ярость"),
    ("Bloodthirst", "Жажда крови"), ("Heat", "Перегрев"), ("Shield", "Щит"),
    ("Health", "Здоровье"), ("No Cost", "Без затрат"), ("Flow", "Поток"),
    ("Grit", "Настойчивость"), ("Ferocity", "Свирепость"), ("Courage", "Отвага"),
    ("Rage Power", "Сила гнева")]

/-- The name of `resource` in a language; the resource `None` has an empty name. -/
def listedName? (language : Language) (resource : String) : Option String :=
  if resource = "None" then some ""
  else match language with
    | .english => englishNames.find? (· = resource)
    | .russian => russianNames.lookup resource

/-- The name of `resource` in a locale: as listed for its language, else in English,
else as given. -/
def nameIn (locale resource : String) : String :=
  let own := (Language.ofLocale? locale).bind (listedName? · resource)
  (own.or (listedName? .english resource)).getD resource

end Resource

end SpellText
