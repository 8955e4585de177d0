import SupportApi.Auth.Jwt

namespace SupportApi.Auth

structure RouteMetadata where
  roles : List UserRole
  blockSuperAdmin : Bool

def Roles (roles : List UserRole) : RouteMetadata := ⟨roles, false⟩

def accessDenied (requiredRoles : List UserRole) (role : UserRole) : String :=
  "Access denied. Required roles: " ++
    ", ".intercalate (requiredRoles.map fun r => String.ofList r.text) ++
    ". Your role: " ++ String.ofList role.text

def RouteMetadata.canActivate (route : RouteMetadata) (user : Option User) : Except Exception Unit :=
  if route.roles = [] then .ok ()
  else
    match user with
    | none => .error (.forbidden "No user in request context")
    | some user =>
      if user.role = .superAdmin then
        if route.blockSuperAdmin then .error (.forbidden "SuperAdmin cannot perform this action")
        else .ok ()
      else if user.role ∈ route.roles then .ok ()
      else .error (.forbidden (accessDenied route.roles user.role))

end SupportApi.Auth
