/-!
# Environment

The environment variables that a program sees.  Looking one up gives its value, or nothing where
it is not set; a variable may be set to the empty text.
-/

set_option autoImplicit false

namespace IndexFeed

/-- The variables that are set, by name. -/
abbrev Environment : Type := List (String × String)

end IndexFeed
