import Deposition.Number.Single

/-!
# Species

A particle's species is one byte: the place of its element in the periodic table, hydrogen being 0.
The server sends 0 for atoms it does not recognise, so those show up as hydrogen.

For drawing, and for the height of a film, an element has a van der Waals radius. Radii are
tabulated up to tungsten; beyond, one radius serves for all.
-/

namespace Deposition

namespace Species

/-- The symbols of the elements, in the order of the periodic table. -/
def symbols : Array String := #[
  "H", "He", "Li", "Be", "B", "C", "N", "O", "F", "Ne", "Na", "Mg", "Al", "Si", "P", "S", "Cl",
  "Ar", "K", "Ca", "Sc", "Ti", "V", "Cr", "Mn", "Fe", "Co", "Ni", "Cu", "Zn", "Ga", "Ge", "As",
  "Se", "Br", "Kr", "Rb", "Sr", "Y", "Zr", "Nb", "Mo", "Tc", "Ru", "Rh", "Pd", "Ag", "Cd", "In",
  "Sn", "Sb", "Te", "I", "Xe", "Cs", "Ba", "La", "Ce", "Pr", "Nd", "Pm", "Sm", "Eu", "Gd", "Tb",
  "Dy", "Ho", "Er", "Tm", "Yb", "Lu", "Hf", "Ta", "W", "Re", "Os", "Ir", "Pt", "Au", "Hg", "Tl",
  "Pb", "Bi", "Po", "At", "Rn", "Fr", "Ra", "Ac", "Th", "Pa", "U", "Np", "Pu", "Am", "Cm", "Bk",
  "Cf", "Es", "Fm", "Md", "No", "Lr", "Rf", "Db", "Sg", "Bh", "Hs", "Mt", "Ds", "Rg", "Cn", "Nh",
  "Fl", "Mc", "Lv", "Ts", "Og"]

/-- Van der Waals radii in hundredths of an ångström, hydrogen to tungsten. -/
def tabulatedRadii : Array Nat := #[
  120, 140, 182, 153, 192, 170, 155, 152, 147, 154,
  227, 173, 184, 210, 180, 180, 175, 188,
  275, 231, 211, 187, 179, 189, 197, 194, 192, 163, 140, 139,
  187, 211, 185, 190, 185, 202,
  303, 249, 232, 223, 218, 217, 216, 213, 210, 163, 172, 158,
  193, 217, 206, 206, 198, 216,
  343, 268, 243, 242, 240, 239, 238, 236, 235, 234, 233, 231, 230, 229, 227, 226, 224,
  223, 222, 218]

/-- The radius of an element without a tabulated one, in hundredths of an ångström. -/
def fallbackRadius : Nat := 200

/-- The element's symbol; `X` past the end of the table. -/
def symbol (species : UInt8) : String := symbols.getD species.toNat "X"

/-- The element's radius in ångström. -/
def radiusAngstrom (species : UInt8) : Single :=
  (Single.ofNat (tabulatedRadii.getD species.toNat fallbackRadius)).div (Single.ofNat 100)

/-- The element's radius in nanometres, the unit of positions. -/
def radiusNm (species : UInt8) : Single := (radiusAngstrom species).div .ten

end Species

end Deposition
