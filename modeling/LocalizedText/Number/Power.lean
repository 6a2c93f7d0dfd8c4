/-!
# Powers

Natural numbers and integers are raised to powers by the core library's own function, also where a
larger library is in scope that has another name for it.
-/

attribute [instance (2000), default_instance (20000)] instPowNat
