/-!
# Lower case

Lower case of the letters that can turn into ASCII ones: `A` to `Z`, and the Kelvin sign, the only
other character whose lower case is an ASCII letter. All other characters stay as they are.
-/
namespace CounterCoordinator.Text

def lowerChar (c : Char) : Char :=
  if c.toNat = 0x212a then 'k' else c.toLower

def lower (s : String) : String := s.map lowerChar

end CounterCoordinator.Text
