import ModuleMock.Service.Routes

/-!
# Requests that reach a route

A request reaches a route by its path and its method, and then its response is the one of the route
(`respond_of_reaches`).
-/

namespace ModuleMock.Service

/-- A request goes to a route, with the method of the route. -/
structure Request.Reaches (r : Request) (route : Route) : Prop where
  path : Route.ofPath? (Target.ofString r.target).path = some route
  method : r.method.toUpper = route.method

end ModuleMock.Service
