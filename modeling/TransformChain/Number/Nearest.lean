/-!
# Nearest floats

Integers as floating point numbers.  Beyond 53 binary digits not every integer is one.
-/

namespace TransformChain
namespace Number

/-- The float nearest to an integer; of two equally near ones the one with the even mantissa. -/
def nearest (i : Int64) : Float :=
  .ofModel (.ofInt64 i)

end Number
end TransformChain
