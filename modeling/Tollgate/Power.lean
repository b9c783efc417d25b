/-! Powers of natural numbers. A bound written as a power is the same term in every module, also in one
that knows powers of more general structures. -/

attribute [instance (high), default_instance 20000] instPowNat
