/-! # Arithmetic

Powers of numbers and sums of lists of numbers are those of the core library, also where a module
imports algebra with powers and sums of its own, so that definitions mean the same everywhere. -/

attribute [instance (high), default_instance (high + 1)] instPowNat

attribute [instance (high)] Zero.ofOfNat0
