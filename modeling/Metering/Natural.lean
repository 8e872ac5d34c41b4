/-!
This module fixes the instances behind the powers of numbers and the numerals of digits to those of
the core library. Where more is imported there are others, which would be found first.
-/

namespace Metering

attribute [instance (2000), default_instance 20000] instPowNat

instance neZeroTen : @NeZero Nat Zero.ofOfNat0 10 :=
  Nat.instNeZeroSucc

end Metering
