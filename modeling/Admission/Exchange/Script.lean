import Admission.Exchange.Timeline

/-!
Scripted providers: for each address a row of answers, which are given one after the other; the last
one is repeated. Addresses are compared without what follows a question mark, and an unknown one is
answered at once with status 418.
-/

set_option autoImplicit false
set_option relaxedAutoImplicit false

namespace Admission

structure Route where
  url : String
  first : Delivery
  more : List Delivery := []

abbrev Script := List Route

namespace Script

/-- The answer of a route, and the route after it. -/
def Route.advance (route : Route) : Delivery × Route :=
  match route.more with
  | [] => (route.first, route)
  | next :: more => (route.first, { route with first := next, more })

/-- The answer for an address, and the routes after it. -/
def answer (script : Script) (url : String) : Delivery × Script :=
  match script with
  | [] => ({ answer := .response { status := 418 }, delay := 0 }, [])
  | route :: rest =>
    if route.url = url then
      let (delivery, route) := Route.advance route
      (delivery, route :: rest)
    else
      let (delivery, rest) := answer rest url
      (delivery, route :: rest)

/-- The part of an address that routes are known by. -/
def key (url : Url) : String :=
  String.ofList (url.chars.takeWhile (· != '?'))

def responder : Responder Script where
  respond _ script request := answer script (key request.url)

end Script

end Admission
