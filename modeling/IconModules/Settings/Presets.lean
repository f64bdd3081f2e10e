import IconModules.Settings.Basic
/-!
# Presets

* **`Settings.preset`** gives the settings of an edition for a project.
-/

namespace IconModules

/-! ### Tables -/

def catalogueAddress : String :=
  "https://fonts.google.com/metadata/icons"

def drawingAddress : String :=
  "https://fonts.gstatic.com/s/i/" ++
    "\x7bfamily\x7d/\x7bicon\x7d/v\x7bversion\x7d/24px.svg?download=true"

namespace Edition

/-- The import lines of a module. -/
def preamble : Edition → String
  | legacy =>
    "import Material.Icons.Coloring exposing (Coloring)\n" ++
    "import Material.Icons.Internal exposing (icon)\n" ++
    "import Svg exposing (Svg, circle, g, path, polygon, polyline, rect, use, svg)\n" ++
    "import Svg.Attributes exposing (baseProfile, clipRule, cx, cy, d, enableBackground, fill, " ++
    "fillOpacity, fillRule, id, overflow, points, r, viewBox, xlinkHref)\n"
  | current =>
    "import Material.Icons.Internal exposing (icon, o, t)\n" ++
    "import Material.Icons.Types exposing (Icon)\n" ++
    "import Svg exposing (circle, g, path, polygon, polyline, rect, use)\n" ++
    "import Svg.Attributes exposing (baseProfile, clipRule, cx, cy, d, enableBackground, fill, " ++
    "fillOpacity, fillRule, id, overflow, points, r, viewBox, xlinkHref)\n"

/-- The attributes taken out of drawings. The current edition keeps the two coordinates. -/
def denylist : Edition → List String
  | legacy =>
    ["class", "clip-path", "display", "height", "version", "width", "x", "xml:space", "xmlns",
     "xmlns:xlink", "y"]
  | current =>
    ["class", "clip-path", "display", "height", "version", "width", "xml:space", "xmlns",
     "xmlns:xlink"]

/-- Identifiers that both editions know. -/
def sharedDigitNames : List (String × String) :=
  [("360", "three_sixty"), ("3d_rotation", "three_d_rotation"), ("4k", "four_k")]

/-- Identifiers that only the current edition knows. -/
def newDigitNames : List (String × String) :=
  [("10k", "ten_k"), ("10mp", "ten_mp"), ("1k", "one_k"), ("1k_plus", "one_k_plus"),
   ("1x_mobiledata", "one_x_mobiledata"), ("2k", "two_k"), ("2k_plus", "two_k_plus"),
   ("30fps", "thirty_fps"), ("30fps_select", "thirty_fps_select"),
   ("3g_mobiledata", "three_g_mobiledata"), ("3k", "three_k"), ("3k_plus", "three_k_plus"),
   ("3p", "three_p"), ("4g_mobiledata", "four_g_mobiledata"),
   ("4g_plus_mobiledata", "four_g_plus_mobiledata"), ("4k_plus", "four_k_plus"),
   ("5g", "five_g"), ("5k", "five_k"), ("5k_plus", "five_k_plus"), ("60fps", "sixty_fps"),
   ("60fps_select", "sixty_fps_select"), ("6_ft_apart", "six_ft_apart"), ("6k", "six_k"),
   ("6k_plus", "six_k_plus"), ("7k", "seven_k"), ("7k_plus", "seven_k_plus"),
   ("8k", "eight_k"), ("8k_plus", "eight_k_plus"), ("9k", "nine_k"), ("9k_plus", "nine_k_plus")]

/-- Identifiers of icons whose names begin with a digit. -/
def digitNames : Edition → List (String × String)
  | legacy => sharedDigitNames
  | current => sharedDigitNames ++ newDigitNames

/-- Renamings that follow the usual ones. -/
def extraRules : Edition → List Renaming
  | legacy => []
  | current => [.call "opacity" "o", .call "transform" "t"]

/-- The modules written by hand. -/
def manualModules : Edition → List String
  | legacy => ["Coloring.elm", "Internal.elm"]
  | current => ["Types.elm", "Internal.elm"]

/-- The type of every icon. -/
def signature : Edition → String
  | legacy => "Int -> Coloring -> Svg msg"
  | current => "Icon msg"

/-- How the icons of a section are listed. -/
def docStyle : Edition → DocStyle
  | legacy => .onePerLine
  | current => .joined

def cacheStart : Edition → CacheStart
  | legacy => .keep
  | current => .purge

end Edition

/-! ### Settings -/

/-- Downloads are repeated without end, five seconds apart. -/
def Repairs.patient : Repairs :=
  ⟨none, 5000⟩

def Settings.preset (e : Edition) (root : Path) : Settings where
  root := root
  catalogueUrl := catalogueAddress
  drawingTemplate := drawingAddress
  familyLead := "Material Icons"
  extension := "elm"
  denylist := e.denylist
  rootCall := "icon"
  extraRules := e.extraRules
  indent := "    "
  digitNames := e.digitNames
  docStyle := e.docStyle
  preamble := e.preamble
  signature := e.signature
  cacheStart := e.cacheStart
  repairs := .patient
  manualFolder := (⟨"Material"⟩ : Path).under "Icons"
  manualModules := e.manualModules
  scaffold := ⟨"Material"⟩
  translator := ⟨"./node_modules/.bin/html-elm"⟩
  formatter := ⟨"elm-format"⟩

end IconModules
