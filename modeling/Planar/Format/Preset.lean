import Planar.Format
set_option autoImplicit false

/-!
Formats with a name.
-/

namespace Planar.PictureFormat

def planarYuv (hsub vsub : Nat) : PictureFormat :=
  ⟨1, [⟨"y8", 1, 1, 1⟩, ⟨"u8", hsub, vsub, 1⟩, ⟨"v8", hsub, vsub, 1⟩]⟩

def gray8 : PictureFormat := ⟨1, [⟨"y8", 1, 1, 1⟩]⟩

def yuv420p : PictureFormat := planarYuv 2 2

def yuv422p : PictureFormat := planarYuv 2 1

def yuv444p : PictureFormat := planarYuv 1 1

def yuva420p : PictureFormat := ⟨1, yuv420p.planes ++ [⟨"a8", 1, 1, 1⟩]⟩

def yuv420p10le : PictureFormat :=
  ⟨1, [⟨"y10l", 1, 1, 2⟩, ⟨"u10l", 2, 2, 2⟩, ⟨"v10l", 2, 2, 2⟩]⟩

def nv12 : PictureFormat := ⟨1, [⟨"y8", 1, 1, 1⟩, ⟨"u8v8", 2, 2, 2⟩]⟩

def uyvy422 : PictureFormat := ⟨2, [⟨"u8y8v8y8", 1, 1, 4⟩]⟩

def rgb24 : PictureFormat := ⟨1, [⟨"r8g8b8", 1, 1, 3⟩]⟩

def rgba32 : PictureFormat := ⟨1, [⟨"r8g8b8a8", 1, 1, 4⟩]⟩

def presets : List (String × PictureFormat) :=
  [("gray8", gray8), ("yuv420p", yuv420p), ("yuv422p", yuv422p), ("yuv444p", yuv444p),
    ("yuva420p", yuva420p), ("yuv420p10le", yuv420p10le), ("nv12", nv12), ("uyvy422", uyvy422),
    ("rgb24", rgb24), ("rgba32", rgba32)]

def aliases : List (String × PictureFormat) :=
  [("i420", yuv420p), ("uyvy", uyvy422), ("rgba", rgba32)]

def presetNames : List String := presets.map Prod.fst

def preset? (name : String) : Option PictureFormat := (presets ++ aliases).lookup name

def ofName (name : String) : Except Fault PictureFormat :=
  match preset? name with
  | some f => .ok f
  | none => .error (.invalid (.unknownFormat name presetNames))

end Planar.PictureFormat
