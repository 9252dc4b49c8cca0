import RamlScaffold.Server.Basic

/-!
The modules of a server that exist once: the factory, configuration, extensions, error handlers and
the blueprint that collects the groups.
-/

namespace RamlScaffold.Server

open Source

def applicationModule (c : Context) : Source :=
  .join [
    [[.docstring "\n" c.appTitle " application factory\n"],
     "import os",
     "",
     "from flask import Flask"],
    when c.settings.includeCors ["from flask_cors import CORS"],
    ["",
     "from app.config import config_by_name",
     "from app.errors.handlers import register_error_handlers"],
    when c.settings.includeAuth ["from app.extensions import jwt"],
    ["from app.extensions.db import db",
     "",
     "",
     "def create_app(config_name=None):",
     ["    ", .docstring "Create and configure the Flask application" "" ""],
     "    if config_name is None:",
     "        config_name = os.environ.get('FLASK_CONFIG', 'development')",
     "",
     "    app = Flask(__name__)",
     "    app.config.from_object(config_by_name.get(config_name, config_by_name['default']))",
     "",
     "    db.init_app(app)"],
    when c.settings.includeAuth ["    jwt.init_app(app)"],
    when c.settings.includeCors
      ["    CORS(app, resources=\x7br'/api/*': \x7b'origins': app.config['CORS_ORIGINS']\x7d\x7d)"],
    ["    register_error_handlers(app)",
     "",
     "    from app.api import api_bp",
     ["    app.register_blueprint(api_bp, url_prefix='/api/", c.settings.apiVersion, "')"],
     "",
     "    with app.app_context():",
     "        db.create_all()",
     "",
     "    return app"]]

def configModule (c : Context) : Source :=
  .join [
    [[.docstring "\nConfiguration for " c.appTitle "\n"],
     "import os",
     "",
     "",
     "class Config:",
     ["    ", .docstring "Base configuration" "" ""],
     "",
     "    SECRET_KEY = os.environ.get('SECRET_KEY', 'change-me')",
     "    SQLALCHEMY_DATABASE_URI = os.environ.get('DATABASE_URL', 'sqlite:///app.db')",
     "    SQLALCHEMY_TRACK_MODIFICATIONS = False",
     ["    API_TITLE = ", .literal c.spec.title],
     ["    API_VERSION = ", .literal c.settings.apiVersion]],
    when c.settings.includeAuth
      ["    JWT_SECRET_KEY = os.environ.get('JWT_SECRET_KEY', 'change-me-too')"],
    when c.settings.includeCors ["    CORS_ORIGINS = os.environ.get('CORS_ORIGINS', '*')"],
    ["",
     "",
     "class DevelopmentConfig(Config):",
     ["    ", .docstring "Local development" "" ""],
     "",
     "    DEBUG = True",
     "",
     "",
     "class TestingConfig(Config):",
     ["    ", .docstring "In-memory database for the test suite" "" ""],
     "",
     "    TESTING = True",
     "    SQLALCHEMY_DATABASE_URI = 'sqlite:///:memory:'",
     "",
     "",
     "class ProductionConfig(Config):",
     ["    ", .docstring "Production deployment" "" ""],
     "",
     "    DEBUG = False",
     "",
     "",
     "config_by_name = \x7b",
     "    'development': DevelopmentConfig,",
     "    'testing': TestingConfig,",
     "    'production': ProductionConfig,",
     "    'default': DevelopmentConfig,",
     "\x7d"]]

def extensionsModule (c : Context) : Source :=
  .join [
    [[.docstring "Flask extension instances" "" ""]],
    when c.settings.includeAuth
      ["from flask_jwt_extended import JWTManager",
       "",
       "jwt = JWTManager()"]]

def databaseModule : Source :=
  [[.docstring "Database extension" "" ""],
   "from flask_sqlalchemy import SQLAlchemy",
   "",
   "db = SQLAlchemy()"]

def errorsModule : Source :=
  [[.docstring "Error handling" "" ""]]

def handlersModule : Source :=
  [[.docstring "JSON error responses" "" ""],
   "from flask import jsonify",
   "from marshmallow import ValidationError",
   "from werkzeug.exceptions import HTTPException",
   "",
   "",
   "def register_error_handlers(app):",
   ["    ", .docstring "Register JSON error handlers on the application" "" ""],
   "",
   "    @app.errorhandler(ValidationError)",
   "    def handle_validation_error(error):",
   "        return jsonify(\x7b'error': 'Validation error', 'messages': error.messages\x7d), 400",
   "",
   "    @app.errorhandler(HTTPException)",
   "    def handle_http_error(error):",
   "        return jsonify(\x7b'error': error.name, 'message': error.description\x7d), error.code",
   "",
   "    @app.errorhandler(Exception)",
   "    def handle_unexpected_error(error):",
   "        app.logger.exception('Unhandled error: %s', error)",
   "        return jsonify(\x7b'error': 'Internal server error'\x7d), 500"]

def requestModule : Source :=
  [[.docstring "Shared request helpers" "" ""],
   "",
   "DEFAULT_PER_PAGE = 20",
   "MAX_PER_PAGE = 100",
   "",
   "",
   "def pagination_args(request):",
   ["    ", .docstring "Read the page and per_page query arguments" "" ""],
   "    page = request.args.get('page', 1, type=int)",
   "    per_page = request.args.get('per_page', DEFAULT_PER_PAGE, type=int)",
   "    return max(page, 1), min(max(per_page, 1), MAX_PER_PAGE)",
   "",
   "",
   "def filter_args(request):",
   ["    ", .docstring "Query arguments other than pagination, used as equality filters" "" ""],
   "    return \x7b",
   "        key: value",
   "        for key, value in request.args.items()",
   "        if key not in ('page', 'per_page', 'q')",
   "    \x7d"]

/-- The package of resources, which lists the groups. -/
def resourcesModule (c : Context) : Source :=
  .join [
    ["\"\"\"",
     "Resource packages"],
    each c.groups fun g =>
      ["",
       [g.name.snake, ": ", g.name.pascal]],
    ["\"\"\""]]

def blueprintModule (c : Context) : Source :=
  .join [
    [[.docstring "\nAPI blueprint aggregating every resource\n" "" ""],
     "from flask import Blueprint, jsonify",
     ""],
    each c.groups fun g =>
      [["from app.resources.", g.name.snake, " import routes as ", g.name.snake, "_routes"]],
    ["",
     "api_bp = Blueprint('api', __name__)",
     "",
     "",
     "@api_bp.route('/health', methods=['GET'])",
     "def health():",
     ["    ", .docstring "Liveness check" "" ""],
     ["    return jsonify(\x7b'status': 'healthy', 'version': ", .literal c.settings.apiVersion,
      "\x7d)"],
     "",
     ""],
    each c.groups fun g =>
      [["api_bp.register_blueprint(", g.name.snake, "_routes.", g.name.snake, "_bp)"]]]

def runScript (c : Context) : Source :=
  [[.docstring "\nDevelopment server for " c.appTitle "\n"],
   "import os",
   "",
   "from app import create_app",
   "",
   "app = create_app(os.environ.get('FLASK_CONFIG', 'development'))",
   "",
   "if __name__ == '__main__':",
   "    app.run(host=os.environ.get('HOST', '0.0.0.0'), port=int(os.environ.get('PORT', '5000')))"]

def wsgiScript (c : Context) : Source :=
  [[.docstring "\nWSGI entry point for " c.appTitle "\n"],
   "from app import create_app",
   "",
   "app = create_app('production')"]

end RamlScaffold.Server
